import Gauntlet.Harness.Session
import Gauntlet.Proofs.Conduct
import Gauntlet.Proofs.Leftovers
import Gauntlet.Proofs.Tally

/-! # The verdict of a harness that runs once

  A harness that runs once makes one pass and answers with its verdict. `Passes` relates a scene
  to those that a pass may lead to and to how the pass ends: it stops at a phase that fails, or
  it completes with a run of the selected cases. The run may take its steps in any order and be
  disturbed; `pass` makes one of these passes (`pass_passes`).

  - A run with a result is whole (`Conducts.whole`): it holds one result for each case, in the
    order of selection, and its totals and its status agree with them.
  - What a start answers is told by how its pass ends (`StartsOnce`).
  - The exit code depends on whether a failure of the harness itself can be reached, so it is
    the same for everything that is wrapped around a verdict (`exitCode_around`).
-/

namespace Gauntlet

/-! ### Exit codes -/

namespace Failure

/-- The second failure is the first one, wrapped any number of times, and joined any number of
    times with failures from which no failure of the harness is reached. -/
inductive Around (f : Failure) : Failure → Prop where
  | itself : Around f f
  | wrap (message : Text) {g : Failure} (h : Around f g) : Around f (.wrap message (some g))
  | join (before after : List Failure) {g : Failure} (h : Around f g)
      (hothers : ∀ x ∈ before ++ after, x.reaches isRuntime = false) :
      Around f (.join (before ++ g :: after))

theorem reachesAny_eq_any (p : Failure → Bool) (fs : List Failure) :
    reachesAny p fs = fs.any (reaches p) := by
  induction fs with
  | nil => rfl
  | cons f fs ih => rw [reachesAny, ih, List.any_cons]

/-- What is reached is reached through everything around it, and nothing else is. -/
theorem Around.reaches {f g : Failure} (h : Around f g) :
    g.reaches isRuntime = f.reaches isRuntime := by
  induction h with
  | itself => rfl
  | wrap message h ih => simpa [Failure.reaches, isRuntime, reachesCause] using ih
  | join before after h hothers ih =>
    have hbefore : before.any (Failure.reaches isRuntime) = false :=
      List.any_eq_false.mpr fun x hx => by simp [hothers x (List.mem_append_left after hx)]
    have hafter : after.any (Failure.reaches isRuntime) = false :=
      List.any_eq_false.mpr fun x hx => by simp [hothers x (List.mem_append_right before hx)]
    simp [Failure.reaches, isRuntime, reachesAny_eq_any, hbefore, hafter, ih]

theorem exitCode_around {f g : Failure} (h : Around f g) : exitCode (some g) = exitCode (some f) := by
  simp only [exitCode, h.reaches]

theorem exitCode_runtime (phase : Text) (cause : Option Failure) :
    exitCode (some (.runtime phase cause)) = 2 := by
  simp [exitCode, reaches, isRuntime]

theorem exitCode_caseFailure (failed : List Case) (total : Int) :
    exitCode (some (.caseFailure failed total)) = 1 := by
  simp [exitCode, reaches, isRuntime]

end Failure

theorem Phase.word_injective {p q : Phase} (h : p.word = q.word) : p = q := by
  cases p <;> cases q <;> first | rfl | exact absurd h (by decide)

/-- The failure of a phase determines the phase and the cause. -/
theorem Phase.failure_injective {p q : Phase} {f g : Failure} (h : p.failure f = q.failure g) :
    p = q ∧ f = g := by
  simp only [Phase.failure, Failure.runtime.injEq, Option.some.injEq] at h
  exact ⟨Phase.word_injective h.1, h.2⟩

/-! ### Cancelled cases -/

namespace Course

variable {σ : Type}

/-- Nothing is issued once the run is cancelled, so it stays so. -/
theorem cancelled_runStages (c : Course) (tools : Toolchain σ) (case : Case) (stages : List Stage)
    {w : World σ} (log : Option CaseLog) (h : w.machine.cancelled = true) :
    (c.runStages tools case stages w log).2.1.machine.cancelled = true := by
  cases stages with
  | nil => exact h
  | cons s rest =>
    have hhindered : c.hindrance? case s w.machine = some .cancelled := by simp [hindrance?, h]
    simp only [runStages, runStage, hhindered, passed_hinderedRecord, Bool.false_eq_true, if_false]
    exact h

theorem cancelled_closeLog (w : World σ) (log : Option CaseLog) :
    (closeLog w log).machine.cancelled = w.machine.cancelled := by
  cases log <;> rfl

theorem cancelled_run (c : Course) (tools : Toolchain σ) (id : Text) (case : Case) {w : World σ}
    (h : w.machine.cancelled = true) : (c.run tools id case w).2.machine.cancelled = true := by
  unfold run
  split
  · exact h
  · rename_i d _
    have hopened : (c.openLog id case (w.withDisk d)).1.machine.cancelled = true := by
      rw [cancelled_openLog]
      exact h
    show (closeLog _ _).machine.cancelled = true
    rw [cancelled_closeLog]
    exact c.cancelled_runStages tools case Stage.all (c.openLog id case (w.withDisk d)).2 hopened

theorem case_run (c : Course) (tools : Toolchain σ) (id : Text) (case : Case) (w : World σ) :
    (c.run tools id case w).1.case = case := by
  obtain ⟨_, _, _, _, hresult, _⟩ := c.run_passage tools id case w
  rw [hresult]
  rfl

end Course

/-! ### Complete runs -/

namespace Run

variable {ω : Type} {e : Executor ω} {id : Text} {cases : List Case}

/-- Results in different empty slots are counted once each. -/
theorem Tallied.fillAll {n : Nat} {r : Run} (h : Tallied n r) {l : List (Nat × CaseResult)}
    (hn : (l.map Prod.fst).Nodup) (hl : ∀ p ∈ l, r.results[p.1]? = some none) :
    Tallied n (Run.fillAll l r) := by
  induction l generalizing r with
  | nil => exact h
  | cons p rest ih =>
    rw [List.map_cons, List.nodup_cons] at hn
    refine ih (h.fill (hl p List.mem_cons_self) p.2) hn.2 ?_
    intro q hq
    have hne : p.1 ≠ q.1 := fun heq => hn.1 (heq ▸ List.mem_map_of_mem hq)
    rw [results_fill, List.getElem?_set_ne hne]
    exact hl q (List.mem_cons_of_mem p hq)

/-- A run that has a result has carried out every case and recorded it. -/
theorem Conducts.completed_of_ok (hs : e.Steady)
    (hsome : ∀ id c w, (e.carryOut id c w).1.isSome = true) {workers : Nat} {start : ZonedInstant}
    {w₀ w : ω} {done : List (Nat × Option CaseResult)} {r : Run}
    (h : Conducts e workers id start cases w₀ done (.ok r) w) :
    ∃ l, done.Perm (l.map fun p => (p.1, some p.2)) ∧
      (l.map Prod.fst).Perm (List.range cases.length) ∧
      r = completed id cases.length (inParallel workers cases) start l := by
  by_cases hq : 2 * workers < 0x8000000000000000
  · rcases h.outcome hs hsome hq with ⟨_, f, hf, _⟩ | ⟨_, l, hperm, hl, hok⟩
    · simp at hf
    · exact ⟨l, hperm, hl, Except.ok.inj hok⟩
  · -- There are no queues for a pool, so the cases were carried out one by one.
    generalize hres : (Except.ok r : Except Fault Run) = res at h
    cases h with
    | @oneByOne _ res' w₁ _ hp h hd =>
      rcases h.outcome hsome (fun j _ hj => getElem_empty id (by omega) _ _) with
        ⟨rfl, _⟩ | ⟨l, rfl, hl, rfl⟩
      · simp [concluded] at hres
      · refine ⟨l, .refl _, by rw [hl, List.range_eq_range'], ?_⟩
        simp only [concluded] at hres
        split at hres
        · simp at hres
        · rw [hp]
          exact Except.ok.inj hres
    | byPool hp hqueues h he hd =>
      rw [Pool.Shape.hasQueues, decide_eq_true_eq] at hqueues
      exact absurd hqueues hq
    | unqueued hp hqueues => simp [concluded] at hres

/-- The totals of a completed run are right, and every slot is filled. -/
theorem tallied_completed (id : Text) {n : Nat} {l : List (Nat × CaseResult)}
    (hl : (l.map Prod.fst).Perm (List.range n)) (parallel : Bool) (start : ZonedInstant) :
    Tallied n (fillAll l (Run.empty id n parallel start)) := by
  refine (tallied_empty id n parallel start).fillAll (hl.nodup_iff.mpr List.nodup_range) ?_
  intro p hp
  have hlt := List.mem_range.mp (hl.mem_iff.mp (List.mem_map_of_mem hp))
  exact getElem_empty id hlt parallel start

/-- A run whose slots are all filled holds what is recorded in it. -/
theorem results_eq_map_recorded {r : Run} (h : ∀ s ∈ r.results, s.isSome = true) :
    r.results = r.recorded.map some := by
  unfold recorded
  generalize r.results = slots at h
  induction slots with
  | nil => rfl
  | cons s rest ih =>
    obtain ⟨c, rfl⟩ := Option.isSome_iff_exists.mp (h s List.mem_cons_self)
    rw [List.filterMap_cons, List.map_cons, ← ih fun s hs => h s (List.mem_cons_of_mem _ hs)]

theorem status_close_eq_fail_iff (r : Run) (elapsed : Duration) :
    (r.close elapsed).status = .fail ↔ ¬ (r.close elapsed).status = .pass := by
  simp only [Run.close, Status.ofBool]
  split <;> simp

/-- A run with a result for each case, in order, each from carrying out its case, and with
    totals and a status that agree with the results. -/
structure Whole (e : Executor ω) (id : Text) (cases : List Case) (r : Run) : Prop where
  results : r.results = r.recorded.map some
  executed : List.Forall₂ (fun c x => ∃ v, some x = (e.carryOut id c v).1) cases r.recorded
  total : r.total = cases.length
  status : r.status = .fail ↔ ∃ x ∈ r.recorded, x.verdict ≠ .pass

theorem Conducts.whole (hs : e.Steady)
    (hsome : ∀ id c w, (e.carryOut id c w).1.isSome = true) {workers : Nat} {start : ZonedInstant}
    {w₀ w : ω} {done : List (Nat × Option CaseResult)} {r : Run}
    (h : Conducts e workers id start cases w₀ done (.ok r) w) : Whole e id cases r := by
  have hexecuted := h.executed hs
  obtain ⟨l, hdone, hl, rfl⟩ := h.completed_of_ok hs hsome
  generalize inParallel workers cases = parallel
  have htally := tallied_completed id hl parallel start
  have hslot : ∀ i < cases.length, ∃ x, (i, x) ∈ l ∧
      (completed id cases.length parallel start l).results[i]? = some (some x) := by
    intro i hi
    obtain ⟨x, hx⟩ := exists_result_completed hl hi
    exact ⟨x, hx, results_completed hl parallel start hx⟩
  have hlength := length_completed id cases.length parallel start l
  have hfilled : ∀ s ∈ (completed id cases.length parallel start l).results, s.isSome = true := by
    intro s hs
    obtain ⟨i, hi, rfl⟩ := List.mem_iff_getElem.mp hs
    obtain ⟨x, _, hx⟩ := hslot i (by omega)
    rw [List.getElem?_eq_getElem hi, Option.some.injEq] at hx
    rw [hx]
    rfl
  have hresults := results_eq_map_recorded hfilled
  refine ⟨hresults, ?_, ?_, ?_⟩
  · have hrecorded : (completed id cases.length parallel start l).recorded.length =
        cases.length := by
      have := congrArg List.length hresults
      rwa [hlength, List.length_map, eq_comm] at this
    refine List.forall₂_iff_get.mpr ⟨hrecorded.symm, fun i hi hi' => ?_⟩
    obtain ⟨x, hmem, hx⟩ := hslot i hi
    rw [hresults, List.getElem?_map, List.getElem?_eq_getElem hi', Option.map_some,
      Option.some.injEq, Option.some.injEq] at hx
    obtain ⟨c, v, hc, hv⟩ := hexecuted (i, some x)
      (hdone.mem_iff.mpr (List.mem_map.mpr ⟨(i, x), hmem, rfl⟩))
    rw [List.getElem?_eq_getElem hi, Option.some.injEq] at hc
    exact ⟨v, by rw [List.get_eq_getElem, List.get_eq_getElem, hx, hc]; exact hv⟩
  · refine Eq.trans htally.total ?_
    rw [Int.ofNat_inj]
    have := List.countP_eq_length.mpr hfilled
    exact this.trans hlength
  · refine (status_close_eq_fail_iff _ _).trans ((not_congr (htally.status_close _)).trans ?_)
    show (¬ ∀ s ∈ (completed id cases.length parallel start l).results, _) ↔ _
    rw [hresults]
    simp

end Run

/-! ### Passes -/

namespace Harness

variable {σ : Type}

/-- The world that is left when the toolchain has been built. -/
def Builds (h : Harness) (e : Surroundings σ) (s : Scene σ) (w : World σ) : Prop :=
  h.build.run e.tools s.world = (w, none)

/-- The cases that are selected after the build, and the world that is left. -/
def Selects (h : Harness) (e : Surroundings σ) (s : Scene σ) (cases : List Case) (w : World σ) :
    Prop :=
  h.Builds e s w ∧
    Selection.select w.disk h.settings.testsDir h.settings.suffix h.settings.pattern = .ok cases

/-- The world that is left when there is a scratch directory for the selected cases. -/
def Prepares (h : Harness) (e : Surroundings σ) (s : Scene σ) (cases : List Case) (w : World σ) :
    Prop :=
  ∃ w₀ d, h.Selects e s cases w₀ ∧ w₀.disk.mkdirs h.course.scratchDir 0o755 = (d, none) ∧
    w = w₀.withDisk d

/-- The run of the selected cases, in whatever order it takes its steps, and the world that is
    left. -/
def Conducts (h : Harness) (e : Surroundings σ) (s : Scene σ) (cases : List Case) (r : Run)
    (w : World σ) : Prop :=
  ∃ w₀ done, h.Prepares e s cases w₀ ∧
    Run.Conducts (h.executor e.tools) h.workers (e.ids s.runs) e.clock cases w₀ done (.ok r) w

/-- How a pass ends: at a phase that fails, or with the run of the selected cases. -/
inductive Outcome where
  | stopped (p : Phase) (cause : Failure)
  | completed (cases : List Case) (r : Run)

/-- The failure of a pass names the phase at which it stops. -/
def Outcome.failure? : Outcome → Option Failure
  | .stopped p cause => some (p.failure cause)
  | .completed _ _ => none

/-- The scenes that a pass may lead to, and how it ends. A phase is reached only if all phases
    before it succeed. -/
inductive Passes (h : Harness) (e : Surroundings σ) (s : Scene σ) : Scene σ → Outcome → Prop where
  | build {w : World σ} {f : Failure} (hfails : h.build.run e.tools s.world = (w, some f)) :
      Passes h e s (atWorld s w) (.stopped .build f)
  | discovery {w : World σ} {f : Failure} (hbuilt : h.Builds e s w)
      (hfails : Selection.select w.disk h.settings.testsDir h.settings.suffix
        h.settings.pattern = .error f) :
      Passes h e s (atWorld s (w.measured fun m => m.recordErrorDetails "discovery" (some f)))
        (.stopped .discovery f)
  | setup {cases : List Case} {w : World σ} {d : Disk} {f : OsError}
      (hselected : h.Selects e s cases w)
      (hfails : w.disk.mkdirs h.course.scratchDir 0o755 = (d, some f)) :
      Passes h e s (atWorld s (w.withDisk d))
        (.stopped .setup (.wrap "failed to create scratch directory" (some f.failure)))
  | run {cases : List Case} {w w' : World σ} {done : List (Nat × Option CaseResult)}
      {f : Run.Fault} (hprepared : h.Prepares e s cases w)
      (hfails : Run.Conducts (h.executor e.tools) h.workers (e.ids s.runs) e.clock cases w done
        (.error f) w') :
      Passes h e s { s with world := w', runs := s.runs + 1 } (.stopped .run f.failure)
  | report {cases : List Case} {r : Run} {w w' : World σ} {f : Failure}
      (hconducted : h.Conducts e s cases r w) (hfails : h.reportFile r w = (w', some f)) :
      Passes h e s { world := w', streams := h.printed r s.streams, result := some r
                     runs := s.runs + 1 } (.stopped .report f)
  | completed {cases : List Case} {r : Run} {w w' : World σ}
      (hconducted : h.Conducts e s cases r w) (hfile : h.reportFile r w = (w', none)) :
      Passes h e s { world := counted r w', streams := h.printed r s.streams, result := some r
                     runs := s.runs + 1 } (.completed cases r)

section Phases

variable {h : Harness} {e : Surroundings σ} {s : Scene σ} {cases : List Case} {r : Run} {w : World σ}

theorem Builds.pass (hb : h.Builds e s w) : h.pass e s = h.selected e (atWorld s w) := by
  simp [Harness.pass, show h.build.run e.tools s.world = (w, none) from hb]

theorem Selects.pass (hs : h.Selects e s cases w) :
    h.pass e s = h.prepared e cases (atWorld s w) := by
  rw [hs.1.pass, selected]
  simp only [atWorld, hs.2]

theorem Prepares.pass (hp : h.Prepares e s cases w) :
    h.pass e s = h.conducted e cases (atWorld s w) := by
  obtain ⟨w₀, d, hselected, hmkdirs, rfl⟩ := hp
  rw [hselected.pass, prepared]
  simp only [atWorld, hmkdirs]

/-- Carrying out a case is steady: a cancelled course issues nothing. -/
theorem executor_steady (h : Harness) (tools : Toolchain σ) : (h.executor tools).Steady :=
  fun id c _ hc => h.course.cancelled_run tools id c hc

theorem Conducts.whole (hc : h.Conducts e s cases r w) :
    Run.Whole (h.executor e.tools) (e.ids s.runs) cases r := by
  obtain ⟨_, _, _, hrun⟩ := hc
  exact hrun.whole (h.executor_steady e.tools) fun _ _ _ => rfl

/-- There is one selection after a build. -/
theorem Selects.cases_eq {cases' : List Case} {w' : World σ} (hs : h.Selects e s cases w)
    (hs' : h.Selects e s cases' w') : cases = cases' := by
  obtain rfl : w = w' := (Prod.mk.inj (hs.1.symm.trans hs'.1)).1
  exact Except.ok.inj (hs.2.symm.trans hs'.2)

theorem Conducts.selects (hc : h.Conducts e s cases r w) : ∃ w₀, h.Selects e s cases w₀ := by
  obtain ⟨_, _, ⟨w₀, _, hselected, _⟩, _⟩ := hc
  exact ⟨w₀, hselected⟩

/-- A pass is one of the passes that are possible, and has the failure of its outcome. -/
theorem pass_passes (h : Harness) (e : Surroundings σ) (s : Scene σ) :
    ∃ out, h.Passes e s (h.pass e s).1 out ∧ (h.pass e s).2 = out.failure? := by
  -- The phases come one after the other, and the first that fails makes the outcome.
  rcases hbuild : h.build.run e.tools s.world with ⟨w, _ | f⟩
  swap
  · simp only [Harness.pass, hbuild]
    exact ⟨_, .build hbuild, rfl⟩
  have hbuilt : h.Builds e s w := hbuild
  rcases hselect : Selection.select w.disk h.settings.testsDir h.settings.suffix
    h.settings.pattern with f | cases
  · rw [hbuilt.pass]
    simp only [selected, atWorld, hselect]
    exact ⟨_, .discovery hbuilt hselect, rfl⟩
  have hselected : h.Selects e s cases w := ⟨hbuilt, hselect⟩
  rcases hmkdirs : w.disk.mkdirs h.course.scratchDir 0o755 with ⟨d, _ | f⟩
  swap
  · rw [hselected.pass]
    simp only [prepared, atWorld, hmkdirs]
    exact ⟨_, .setup hselected hmkdirs, rfl⟩
  have hprepared : h.Prepares e s cases (w.withDisk d) := ⟨w, d, hselected, hmkdirs, rfl⟩
  obtain ⟨done, hconducts⟩ := Run.conduct_conducts (h.executor_steady e.tools) h.workers
    (e.ids s.runs) e.clock cases (w.withDisk d)
  rw [hprepared.pass]
  rcases hrun : Run.conduct (h.executor e.tools) h.workers (e.ids s.runs) e.clock cases
    (w.withDisk d) with ⟨f | r, w'⟩
  · rw [hrun] at hconducts
    simp only [conducted, atWorld, hrun]
    exact ⟨_, .run hprepared hconducts, rfl⟩
  rw [hrun] at hconducts
  have hconducted : h.Conducts e s cases r w' := ⟨_, done, hprepared, hconducts⟩
  rcases hfile : h.reportFile r w' with ⟨w'', _ | f⟩
  · simp only [conducted, reported, atWorld, hrun, hfile]
    exact ⟨_, .completed hconducted hfile, rfl⟩
  · simp only [conducted, reported, atWorld, hrun, hfile]
    exact ⟨_, .report hconducted hfile, rfl⟩

end Phases

end Harness

/-! ### Verdicts -/

namespace Session

open Harness

variable {σ : Type} {h : Harness} {e : Surroundings σ} {s : Session σ}

theorem scene_after (s : Session σ) (scene : Scene σ) : (s.after h scene).scene = scene := by
  unfold after followed
  dsimp only
  split <;> rfl

/-- The failure of a pass is answered if it has one, and else the verdict on the run. -/
theorem answer_after (s : Session σ) (scene : Scene σ) (f? : Option Failure) :
    ((s.after h scene).answered h f?).2 = f?.or (verdict { s with scene }) := by
  have hverdict : ((s.after h scene).retired h).verdict = verdict { s with scene } := by
    show (s.after h scene).verdict = _
    rw [verdict, scene_after]
    rfl
  unfold answered
  dsimp only
  rw [hverdict]
  cases f?.or (verdict { s with scene }) <;> rfl

theorem failures_eq_filter (r : Run) :
    r.failures = r.recorded.filter fun x => x.verdict ≠ .pass := by
  refine List.filter_congr fun x _ => ?_
  cases x.verdict <;> simp [Verdict.passed]

/-- What a start that makes one pass may come to: how the pass ends, in whatever order its run
    takes its steps, the session after it, and what is answered. -/
def StartsOnce (h : Harness) (e : Surroundings σ) (s : Session σ) (out : Outcome)
    (s' : Session σ) (answer : Option Failure) : Prop :=
  ∃ begun service scene, s.serve h = (begun, service, none) ∧ h.Passes e begun.scene scene out ∧
    ((begun.followed h [.start service]).after h scene).answered h out.failure? = (s', answer)

section Once

variable {s' : Session σ} {answer : Option Failure}

/-- A start with one pass is one of those that are possible. -/
theorem start_startsOnce (honce : h.settings.runOnce = true)
    (hservice : Service.enabled h.settings.endpoints = false) :
    ∃ out, s.StartsOnce h e out (s.start h e).1 (s.start h e).2 := by
  obtain ⟨out, hpass, hfailure⟩ := h.pass_passes e s.scene
  refine ⟨out, s, s.control.service, (h.pass e s.scene).1, ?_, hpass, ?_⟩
  · simp [serve, served, hservice]
  · rw [← hfailure]
    simp only [start, serve, served, hservice, honce]
    rfl

/-- Without a service, the pass starts at the scene of the session. -/
theorem StartsOnce.passes (hservice : Service.enabled h.settings.endpoints = false) {out : Outcome}
    (hs : s.StartsOnce h e out s' answer) :
    ∃ scene, h.Passes e s.scene scene out ∧
      answer = out.failure?.or (verdict { s with scene }) := by
  obtain ⟨begun, service, scene, hserve, hpass, hanswer⟩ := hs
  -- Nothing is served, so the pass finds the session as it was.
  simp only [serve, served, hservice, Bool.not_false, if_true, Prod.mk.injEq] at hserve
  obtain ⟨rfl, rfl, _⟩ := hserve
  have hafter := answer_after (h := h) (s.followed h [.start s.control.service]) scene out.failure?
  rw [hanswer] at hafter
  exact ⟨scene, hpass, hafter⟩

variable (hservice : Service.enabled h.settings.endpoints = false)
include hservice

theorem StartsOnce.of_stopped {p : Phase} {cause : Failure}
    (hs : s.StartsOnce h e (.stopped p cause) s' answer) : answer = some (p.failure cause) := by
  obtain ⟨_, _, hanswer⟩ := hs.passes hservice
  exact hanswer

theorem StartsOnce.conducts {cases : List Case} {r : Run}
    (hs : s.StartsOnce h e (.completed cases r) s' answer) : ∃ w, h.Conducts e s.scene cases r w := by
  obtain ⟨_, hpass, _⟩ := hs.passes hservice
  cases hpass with
  | completed hconducted _ => exact ⟨_, hconducted⟩

theorem StartsOnce.of_completed {cases : List Case} {r : Run}
    (hs : s.StartsOnce h e (.completed cases r) s' answer) :
    answer =
      if ∃ x ∈ r.recorded, x.verdict ≠ .pass then
        some (.caseFailure ((r.recorded.filter fun x => x.verdict ≠ .pass).map CaseResult.case)
          cases.length)
      else none := by
  obtain ⟨_, hpass, rfl⟩ := hs.passes hservice
  cases hpass with
  | completed hconducted _ =>
    have hwhole := hconducted.whole
    simp only [Outcome.failure?, Option.none_or, verdict, Run.failedCases, failures_eq_filter,
      hwhole.total]
    exact if_congr hwhole.status rfl rfl

theorem StartsOnce.eq_none_iff {out : Outcome} (hs : s.StartsOnce h e out s' answer) :
    answer = none ↔ ∃ cases r, out = .completed cases r ∧ ∀ x ∈ r.recorded, x.verdict = .pass := by
  cases out with
  | stopped p cause => simp [hs.of_stopped hservice]
  | completed cases r => simp [hs.of_completed hservice]

theorem StartsOnce.eq_caseFailure_iff {out : Outcome} (hs : s.StartsOnce h e out s' answer)
    (failed : List Case) (total : Int) :
    answer = some (.caseFailure failed total) ↔
    ∃ cases r, out = .completed cases r ∧ (∃ x ∈ r.recorded, x.verdict ≠ .pass) ∧
      failed = (r.recorded.filter fun x => x.verdict ≠ .pass).map CaseResult.case ∧
      total = cases.length := by
  cases out with
  | stopped p cause => simp [hs.of_stopped hservice, Phase.failure]
  | completed cases r =>
    rw [hs.of_completed hservice]
    constructor
    · intro hanswer
      split at hanswer
      · rename_i hsome
        simp only [Option.some.injEq, Failure.caseFailure.injEq] at hanswer
        exact ⟨cases, r, rfl, hsome, hanswer.1.symm, hanswer.2.symm⟩
      · simp at hanswer
    · rintro ⟨_, _, ⟨⟩, hsome, rfl, rfl⟩
      rw [if_pos hsome]

theorem StartsOnce.eq_failure_iff {out : Outcome} (hs : s.StartsOnce h e out s' answer)
    (p : Phase) (cause : Failure) :
    answer = some (p.failure cause) ↔ out = .stopped p cause := by
  cases out with
  | stopped q f =>
    rw [hs.of_stopped hservice, Option.some.injEq]
    constructor
    · intro heq
      obtain ⟨rfl, rfl⟩ := Phase.failure_injective heq
      rfl
    · rintro ⟨⟩
      rfl
  | completed cases r =>
    rw [hs.of_completed hservice]
    split <;> simp [Phase.failure]

end Once

/-- The outcome of a harness that runs once without a service, with any number of workers and
    in whatever order the run takes its steps. Nothing is answered exactly if all phases succeed
    and every case passes, the failing cases exactly if all phases succeed and some case fails,
    and else the failure of the first phase that fails. The run has one result for each
    selected case, in the order of selection. The exit code tells the three answers apart, also
    when the failure is wrapped or joined with others. -/
theorem start_verdict (h : Harness) (e : Surroundings σ) (s : Session σ)
    (honce : h.settings.runOnce = true)
    (hservice : Service.enabled h.settings.endpoints = false) :
    (∃ out, s.StartsOnce h e out (s.start h e).1 (s.start h e).2) ∧
    (∀ out s' answer, s.StartsOnce h e out s' answer →
      (∃ scene, h.Passes e s.scene scene out) ∧
      (answer = none ↔
        ∃ cases r, out = .completed cases r ∧ ∀ x ∈ r.recorded, x.verdict = .pass) ∧
      (∀ failed total, answer = some (.caseFailure failed total) ↔
        ∃ cases r, out = .completed cases r ∧ (∃ x ∈ r.recorded, x.verdict ≠ .pass) ∧
          failed = (r.recorded.filter fun x => x.verdict ≠ .pass).map CaseResult.case ∧
          total = cases.length) ∧
      (∀ p cause, answer = some (Phase.failure p cause) ↔ out = .stopped p cause) ∧
      (answer = none ∨ (∃ failed total, answer = some (.caseFailure failed total)) ∨
        ∃ p cause, answer = some (Phase.failure p cause)) ∧
      (∀ cases r, out = .completed cases r →
        (∃ w, h.Selects e s.scene cases w) ∧ r.results = r.recorded.map some ∧
        List.Forall₂ (fun c x => x.case = c ∧
          ∃ w, x = (h.course.run e.tools (e.ids s.scene.runs) c w).1) cases r.recorded)) ∧
    Failure.exitCode none = 0 ∧
    (∀ failed total g, Failure.Around (.caseFailure failed total) g →
      Failure.exitCode (some g) = 1) ∧
    (∀ p cause g, Failure.Around (Phase.failure p cause) g → Failure.exitCode (some g) = 2) := by
  refine ⟨start_startsOnce honce hservice, ?_, rfl, fun failed total g hg => ?_,
    fun p cause g hg => ?_⟩
  · intro out s' answer hs
    obtain ⟨scene, hpass, _⟩ := hs.passes hservice
    refine ⟨⟨scene, hpass⟩, hs.eq_none_iff hservice, hs.eq_caseFailure_iff hservice,
      hs.eq_failure_iff hservice, ?_, ?_⟩
    · cases out with
      | stopped p cause => exact Or.inr (Or.inr ⟨p, cause, hs.of_stopped hservice⟩)
      | completed cases r =>
        rw [hs.of_completed hservice]
        split
        · exact Or.inr (Or.inl ⟨_, _, rfl⟩)
        · exact Or.inl rfl
    · rintro cases r rfl
      obtain ⟨w, hconducted⟩ := hs.conducts hservice
      refine ⟨hconducted.selects, hconducted.whole.results, hconducted.whole.executed.imp ?_⟩
      rintro c x ⟨w, hx⟩
      have hrun : x = (h.course.run e.tools (e.ids s.scene.runs) c w).1 := Option.some.inj hx
      exact ⟨hrun ▸ h.course.case_run e.tools _ c w, w, hrun⟩
  · rw [Failure.exitCode_around hg, Failure.exitCode_caseFailure]
  · rw [Failure.exitCode_around hg]
    exact Failure.exitCode_runtime p.word (some cause)

end Session

/-- A directory whose sources are in order is taken as it is. -/
theorem Selection.select_of_sorted {d : Disk} {dir suffix : Text} {names : List Text}
    (hread : d.readDir dir = .ok names)
    (hsorted : (((names.filter (·.endsWith (if suffix = [] then defaultSuffix else suffix))).map
      fun n => Path.join [dir, n]).filter (isRegular d)).Pairwise (Text.le · ·)) (pattern : Text) :
    select d dir suffix pattern = distinctAfter d [] (filter
      (((names.filter (·.endsWith (if suffix = [] then defaultSuffix else suffix))).map
        fun n => Path.join [dir, n]).filter (isRegular d)) pattern) := by
  simp only [select, discover, hread, List.mergeSort_of_pairwise hsorted]

/-! ### Samples -/

namespace Sample

/-- The scratch directory with the sources of two cases in it. -/
def sourced : Disk :=
  ((disk 0o755).put [("t" : Text), ("a.x" : Text)] (.file [] 0o644 ⟨0, 0⟩)).put
    [("t" : Text), ("b.x" : Text)] (.file [] 0o644 ⟨0, 0⟩)

/-- A toolchain whose launcher writes the assembly of the first case and fails for the
    second. -/
def halfway : Surroundings Unit where
  tools cmd _ m :=
    if cmd.args = [("/t/b.x" : Text)] then
      { ending := { exitCode := 1 }, machine := m, memory := () }
    else if cmd.args = [("/t/a.x" : Text)] then
      match m.disk.writeFile "/t/a.x.s" "new" 0o644 with
      | .ok d => { ending := {}, machine := { m with disk := d }, memory := () }
      | .error _ => { ending := { exitCode := 1 }, machine := m, memory := () }
    else { ending := {}, machine := m, memory := () }
  ids _ := "r"

/-- A harness that runs once, with two workers. -/
def once : Harness where
  settings := { testsDir := "/t", suffix := ".x", runOnce := true }
  build := {}
  course := { course with logs := none }
  workers := 2

def opening : Session Unit := { scene := { world := world sourced } }

/-- The cases of the two sources. -/
def pair : List Case := [⟨"/t/a.x", "a.x"⟩, ⟨"/t/b.x", "b.x"⟩]

theorem select_sourced : Selection.select sourced "/t" ".x" [] = .ok pair := by
  have hnames : sourced.readDir "/t" = .ok [("a.x" : Text), ("b.x" : Text)] := by rfl
  rw [Selection.select_of_sorted hnames (by decide +kernel)]
  rfl

theorem start_verdict_halfway :
    Failure.exitCode (opening.start once halfway).2 = 1 ∧
    ∃ r s' answer, opening.StartsOnce once halfway (.completed pair r) s' answer ∧
      (∃ x ∈ r.recorded, x.verdict ≠ .pass) ∧ (opening.start once halfway).2 = answer ∧
      answer = some (.caseFailure
        ((r.recorded.filter fun x => x.verdict ≠ .pass).map CaseResult.case) pair.length) := by
  have hselects : once.Selects halfway opening.scene pair
      ((world sourced).measured fun m => m.recordBuild Duration.zero) := ⟨rfl, select_sourced⟩
  obtain ⟨⟨out, hstarts⟩, hall, hnone, _, hphase⟩ :=
    Session.start_verdict once halfway opening rfl (by decide +kernel)
  have hcode : Failure.exitCode (opening.start once halfway).2 = 1 := by
    have hanswer : (opening.start once halfway).2 =
        (once.pass halfway opening.scene).2.or
          (Session.verdict { opening with scene := (once.pass halfway opening.scene).1 }) :=
      Session.answer_after (h := once) (opening.followed once [.start opening.control.service]) _ _
    rw [hanswer, hselects.pass]
    decide +kernel
  refine ⟨hcode, ?_⟩
  obtain ⟨_, _, hfails, _, hcases, hgiven⟩ := hall _ _ _ hstarts
  rcases hcases with heq | ⟨failed, total, heq⟩ | ⟨p, cause, heq⟩
  · rw [heq, hnone] at hcode
    simp at hcode
  · obtain ⟨cases, r, rfl, hsome, rfl, rfl⟩ := (hfails failed total).mp heq
    obtain ⟨⟨w, hselects'⟩, _⟩ := hgiven cases r rfl
    obtain rfl : cases = pair := hselects'.cases_eq hselects
    exact ⟨r, _, _, hstarts, hsome, rfl, heq⟩
  · rw [heq, hphase p cause _ .itself] at hcode
    simp at hcode

end Sample

end Gauntlet
