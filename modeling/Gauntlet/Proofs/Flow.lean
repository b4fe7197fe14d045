import Gauntlet.Proofs.Counting
import Gauntlet.Proofs.Interleaving
import Gauntlet.Proofs.Leftovers

/-! # The flow of cases through the metrics

  A case that ends has gone through some stages, and each of them was counted. So the series
  are not independent: what leaves one stage with success enters the next one, and what does
  not is counted as a failure of that stage.

  - `ticksOf` tells the updates of the metrics in a move, and `metrics_move` that there are no
    others. Whatever the moves of a case find, the ticks of a completed course are of a few
    forms only (`Onward`).
  - A `Journey` takes one case through its course while anything may happen to the world between
    its moves. The ticks of several journeys are mixed in any way (`Interleaved`).
  - The flow is conserved for one journey, and by counting for any number of them
    (`flow_conserved`).
-/

namespace Gauntlet

/-! ### Metrics and worlds -/

section Worlds

variable {σ : Type}

theorem World.metrics_takeOutput (w : World σ) (log : Option CaseLog)
    (pieces : List (Channel × Text)) : (w.takeOutput log pieces).1.metrics = w.metrics := by
  induction pieces generalizing w log with
  | nil => rfl
  | cons p rest ih =>
    obtain ⟨ch, piece⟩ := p
    cases log with
    | none =>
      simp only [takeOutput]
      rw [ih]
    | some l =>
      simp only [takeOutput]
      rw [ih]
      rfl

namespace Course

theorem metrics_perform (c : Course) (tools : Toolchain σ) (case : Case) (s : Stage) (w : World σ)
    (log : Option CaseLog) : (c.perform tools case s w log).2.1.metrics = w.metrics := by
  have hsection : (beginSection s w log).1.metrics = w.metrics := by cases log <;> rfl
  refine Eq.trans ?_ hsection
  simp only [perform, World.ended, World.issue]
  exact World.metrics_takeOutput _ _ _

theorem metrics_closeLog (w : World σ) (log : Option CaseLog) :
    (closeLog w log).metrics = w.metrics := by
  cases log <;> rfl

/-! ### The ticks of a move -/

variable (c : Course) (tools : Toolchain σ) (id : Text) (case : Case)

/-- What is counted of a stage. -/
def stageTicks (s : Stage) (r : StageRecord) : List Tick :=
  [.invoked s r.passed, .lasted s r.duration]

/-- What is counted when a log is opened: the error, if it cannot be. -/
def openTicks (w : World σ) : List Tick :=
  match c.logs with
  | none => []
  | some source =>
    match (source id case w.disk).2 with
    | .ok _ => []
    | .error f => [.error ("test_log" ++ "." ++ Metrics.errorLabel (some f))]

/-- The updates of the metrics in a move. -/
def ticksOf : Point × World σ → List Tick
  | (.clearing [], w) => c.openTicks id case w
  | (.clearing (p :: _), w) =>
    match Artifacts.discard w.disk p with
    | .ok _ => []
    | .error _ => [.ended (.failedAt .interpret)]
  | (.checking _ records [], _) => [.ended (verdictOf records)]
  | (.checking _ _ (s :: _), w) =>
    match c.hindrance? case s w.machine with
    | some h => stageTicks s (hinderedRecord s h.failure)
    | none => []
  | (.performing log _ s _, w) => stageTicks s (c.perform tools case s w log).1
  | (.done _, _) => []

/-- In the move an artifact cannot be removed. -/
def sticks : Point × World σ → Bool
  | (.clearing (p :: _), w) => !(Artifacts.discard w.disk p).isOk
  | _ => false

theorem sticks_removed {w : World σ} {p : Text} {d : Disk} (left : List Text)
    (h : Artifacts.discard w.disk p = .ok d) : sticks (.clearing (p :: left), w) = false := by
  rw [sticks, h]
  rfl

theorem sticks_stuck {w : World σ} {p : Text} {f : Failure} (left : List Text)
    (h : Artifacts.discard w.disk p = .error f) : sticks (.clearing (p :: left), w) = true := by
  rw [sticks, h]
  rfl

theorem metrics_openLog (w : World σ) :
    (c.openLog id case w).1.metrics = w.metrics.ticked (c.openTicks id case w) := by
  unfold openLog openTicks
  cases c.logs with
  | none => rfl
  | some source =>
    dsimp only
    generalize source id case w.disk = opened
    obtain ⟨d, f | l⟩ := opened
    · exact Metrics.recordErrorDetails_eq _ _ f
    · rfl

theorem metrics_ending (records : List StageRecord) (w : World σ) (log : Option CaseLog) :
    (ending case records w log).2.metrics = w.metrics.ticked [.ended (verdictOf records)] := by
  rw [← metrics_closeLog w log, ← Metrics.recordCase_eq]
  rfl

/-- A move updates the metrics by its ticks. -/
theorem metrics_move (p : Point) (w : World σ) :
    (c.move tools id case (p, w)).2.metrics =
      w.metrics.ticked (c.ticksOf tools id case (p, w)) := by
  match p with
  | .clearing [] => exact c.metrics_openLog id case w
  | .clearing (p :: left) =>
    cases hp : Artifacts.discard w.disk p with
    | ok d =>
      rw [c.move_removed tools id case left hp]
      simp only [ticksOf, hp]
      rfl
    | error f =>
      rw [c.move_stuck tools id case left hp, metrics_ending]
      simp only [ticksOf, hp]
      rfl
  | .checking log records [] => exact metrics_ending case records w log
  | .checking log records (s :: rest) =>
    cases hh : c.hindrance? case s w.machine with
    | some h =>
      rw [c.move_hindered tools id case log records rest hh]
      simp only [ticksOf, hh]
      rfl
    | none =>
      rw [c.move_checked tools id case log records rest hh]
      simp only [ticksOf, hh]
      rfl
  | .performing log records s rest =>
    rw [move_performed, ticksOf, stageTicks, ← Metrics.recordStage_eq,
      ← c.metrics_perform tools case s w log]
    rfl
  | .done r => rfl

/-! ### The ticks of a course -/

/-- The ticks of a case that has still some stages before it, up to its end. -/
inductive Onward : List Stage → List Tick → Prop where
  | passed : Onward [] [.ended .pass]
  | failed (s : Stage) (rest : List Stage) (d : Duration) :
      Onward (s :: rest) [.invoked s false, .lasted s d, .ended (.failedAt s)]
  | went (s : Stage) (d : Duration) {rest : List Stage} {ts : List Tick} (h : Onward rest ts) :
      Onward (s :: rest) (.invoked s true :: .lasted s d :: ts)

/-- The ticks of a case from a point up to its end, and whether it sticks on the way. -/
def Ahead : Point → Bool → List Tick → Prop
  | .clearing _, true, ts => ts = [.ended (.failedAt .interpret)]
  | .clearing _, false, ts => ∃ front rest, ts = front ++ rest ∧
      (∀ t ∈ front, ∃ label, t = .error label) ∧ Onward Stage.all rest
  | .checking _ records [], stuck, ts => stuck = false ∧ ts = [.ended (verdictOf records)]
  | .checking _ _ (s :: rest), stuck, ts => stuck = false ∧ Onward (s :: rest) ts
  | .performing _ _ s rest, stuck, ts => stuck = false ∧ Onward (s :: rest) ts
  | .done _, stuck, ts => stuck = false ∧ ts = []

/-- A move puts its ticks before those that come after it. -/
theorem ahead_move (p : Point) (w : World σ) {stuck : Bool} {ts : List Tick}
    (h : Ahead (c.move tools id case (p, w)).1 stuck ts) :
    Ahead p (sticks (p, w) || stuck) (c.ticksOf tools id case (p, w) ++ ts) := by
  match p with
  | .clearing [] =>
    obtain ⟨rfl, honward⟩ : stuck = false ∧ Onward Stage.all ts := h
    refine ⟨c.openTicks id case w, ts, rfl, ?_, honward⟩
    intro t ht
    unfold openTicks at ht
    split at ht
    · simp at ht
    · split at ht
      · simp at ht
      · exact ⟨_, List.mem_singleton.mp ht⟩
  | .clearing (p :: left) =>
    cases hp : Artifacts.discard w.disk p with
    | ok d =>
      rw [c.move_removed tools id case left hp] at h
      simp only [sticks, ticksOf, hp]
      cases stuck <;> exact h
    | error f =>
      rw [c.move_stuck tools id case left hp] at h
      obtain ⟨rfl, rfl⟩ : stuck = false ∧ ts = [] := h
      simp only [sticks, ticksOf, hp]
      rfl
  | .checking log records [] =>
    obtain ⟨rfl, rfl⟩ : stuck = false ∧ ts = [] := h
    exact ⟨rfl, rfl⟩
  | .checking log records (s :: rest) =>
    cases hh : c.hindrance? case s w.machine with
    | some hindrance =>
      rw [c.move_hindered tools id case log records rest hh] at h
      -- The new record is the last one, so it decides the verdict.
      obtain ⟨rfl, rfl⟩ := h
      have hfailed : (hinderedRecord s hindrance.failure).passed = false :=
        passed_hinderedRecord s _
      rw [verdictOf_failed records hfailed]
      simp only [ticksOf, hh, stageTicks, hfailed]
      exact ⟨rfl, .failed s rest _⟩
    | none =>
      rw [c.move_checked tools id case log records rest hh] at h
      simp only [ticksOf, hh]
      exact h
  | .performing log records s rest =>
    rw [move_performed] at h
    have hstage : (c.perform tools case s w log).1.stage = s := rfl
    simp only [ticksOf, stageTicks]
    generalize c.perform tools case s w log = performed at h hstage
    obtain ⟨r, w', log'⟩ := performed
    subst hstage
    -- If the stage passed, the rest of the stages is still ahead; else the case ends with it.
    cases hr : r.passed with
    | true =>
      simp only [hr, if_true] at h
      cases rest with
      | nil =>
        obtain ⟨rfl, rfl⟩ := h
        have hpass : verdictOf (records ++ [r]) = .pass := by simp [verdictOf, hr]
        rw [hpass]
        exact ⟨rfl, .went r.stage r.duration .passed⟩
      | cons s rest =>
        obtain ⟨rfl, honward⟩ := h
        exact ⟨rfl, .went r.stage r.duration honward⟩
    | false =>
      simp only [hr, Bool.false_eq_true, if_false] at h
      obtain ⟨rfl, rfl⟩ := h
      rw [verdictOf_failed records hr]
      exact ⟨rfl, .failed r.stage rest r.duration⟩
  | .done r => exact h

/-- The moves that a case makes from a point, each in the world that it finds. -/
def route : Point → List (World σ) → List (Point × World σ)
  | _, [] => []
  | p, w :: ws => (p, w) :: route (c.move tools id case (p, w)).1 ws

/-- The point that a case comes to from another. -/
def reached : Point → List (World σ) → Point
  | p, [] => p
  | p, w :: ws => reached (c.move tools id case (p, w)).1 ws

/-- The ticks of a case that comes to its end. -/
theorem ahead_route {p : Point} {ws : List (World σ)} {r : CaseResult}
    (h : c.reached tools id case p ws = .done r) :
    Ahead p ((c.route tools id case p ws).any sticks)
      ((c.route tools id case p ws).flatMap (c.ticksOf tools id case)) := by
  induction ws generalizing p with
  | nil =>
    obtain rfl : p = .done r := h
    exact ⟨rfl, rfl⟩
  | cons w ws ih => exact c.ahead_move tools id case p w (ih h)

/-- The worlds that a case finds if nothing happens between its moves. -/
def ownWorlds : Nat → Point × World σ → List (World σ)
  | 0, _ => []
  | n + 1, q => q.2 :: ownWorlds n (c.move tools id case q)

theorem reached_ownWorlds (n : Nat) (q : Point × World σ) :
    c.reached tools id case q.1 (c.ownWorlds tools id case n q) =
      ((c.move tools id case)^[n] q).1 := by
  induction n generalizing q with
  | zero => rfl
  | succ n ih =>
    rw [Function.iterate_succ_apply, ← ih]
    rfl

theorem metrics_ownWorlds (n : Nat) (q : Point × World σ) :
    ((c.move tools id case)^[n] q).2.metrics = q.2.metrics.ticked
      ((c.route tools id case q.1 (c.ownWorlds tools id case n q)).flatMap
        (c.ticksOf tools id case)) := by
  induction n generalizing q with
  | zero => rfl
  | succ n ih =>
    rw [Function.iterate_succ_apply, ih, c.metrics_move tools id case q.1 q.2,
      ← Metrics.ticked_append]
    rfl

end Course

end Worlds

/-! ### Journeys -/

/-- A journey takes a case through its course. Anything may happen to the world between its
    moves, so each of them finds a world of its own. -/
structure Journey where
  memory : Type
  course : Course
  tools : Toolchain memory
  id : Text
  case : Case
  /-- The worlds that the moves find, in order. -/
  worlds : List (World memory)

namespace Journey

/-- The moves of a journey, each with the world that it finds. -/
def moves (k : Journey) : List (Point × World k.memory) :=
  k.course.route k.tools k.id k.case (k.course.outset k.case) k.worlds

/-- The journey has come to its end. -/
def Completed (k : Journey) : Prop :=
  ∃ r, k.course.reached k.tools k.id k.case (k.course.outset k.case) k.worlds = .done r

/-- The updates of the metrics in a journey, in order. -/
def ticks (k : Journey) : List Tick := k.moves.flatMap (k.course.ticksOf k.tools k.id k.case)

/-- The artifacts of the case could not be removed. -/
def stuck (k : Journey) : Bool := k.moves.any Course.sticks

/-- The journey whose moves are made one after the other, starting in a given world. -/
def alone {σ : Type} (c : Course) (tools : Toolchain σ) (id : Text) (case : Case) (w : World σ) :
    Journey where
  memory := σ
  course := c
  tools := tools
  id := id
  case := case
  worlds := c.ownWorlds tools id case 10 (c.outset case, w)

section Alone

variable {σ : Type} (c : Course) (tools : Toolchain σ) (id : Text) (case : Case) (w : World σ)

theorem alone_completed : (alone c tools id case w).Completed := by
  have h := c.reached_ownWorlds tools id case 10 (c.outset case, w)
  rw [c.move_iterate_eq_run tools id case w (Nat.le_refl 10)] at h
  exact ⟨_, h⟩

/-- A journey that is left alone updates the metrics like a run in one go. -/
theorem alone_ticks :
    (c.run tools id case w).2.metrics = w.metrics.ticked (alone c tools id case w).ticks := by
  have h := c.metrics_ownWorlds tools id case 10 (c.outset case, w)
  rw [c.move_iterate_eq_run tools id case w (Nat.le_refl 10)] at h
  exact h

/-- A journey that is left alone is stuck exactly if cleaning fails. -/
theorem alone_stuck :
    (alone c tools id case w).stuck = ((c.artifacts case).clean w.disk).2.isSome := by
  obtain ⟨r, hr⟩ := alone_completed c tools id case w
  let next := c.move tools id case
  have hstep : ∀ n q, (c.route tools id case q.1 (c.ownWorlds tools id case (n + 1) q)).any
      Course.sticks = (Course.sticks q || (c.route tools id case (next q).1
        (c.ownWorlds tools id case n (next q))).any Course.sticks) := fun _ _ => rfl
  refine (hstep 9 (c.outset case, w)).trans ?_
  unfold Artifacts.clean
  cases hs : Artifacts.discard w.disk (c.artifacts case).assembly with
  | error f =>
    have hstuck : Course.sticks (c.outset case, w) = true := Course.sticks_stuck _ hs
    simp [hstuck]
  | ok d₁ =>
    have hfree : Course.sticks (c.outset case, w) = false := Course.sticks_removed _ hs
    have hnext : next (c.outset case, w) =
        (.clearing [(c.artifacts case).binary], w.withDisk d₁) :=
      c.move_removed tools id case _ hs
    rw [hfree, hnext, hstep 8]
    cases hb : Artifacts.discard d₁ (c.artifacts case).binary with
    | error f =>
      rw [Course.sticks_stuck [] (w := w.withDisk d₁) hb]
      simp [hb]
    | ok d₂ =>
      have hnext' : next (.clearing [(c.artifacts case).binary], w.withDisk d₁) =
          (.clearing [], (w.withDisk d₁).withDisk d₂) :=
        c.move_removed tools id case [] (w := w.withDisk d₁) hb
      -- Past the artifacts nothing can stick any more.
      have hr : c.reached tools id case (next (next (next (c.outset case, w)))).1
          (c.ownWorlds tools id case 7 (next (next (next (c.outset case, w))))) = .done r := hr
      rw [hnext, hnext'] at hr
      have hrest := (c.ahead_route tools id case hr).1
      rw [Course.sticks_removed [] (w := w.withDisk d₁) hb, hnext', hstep 7, hrest]
      simp [hb, Course.sticks]

end Alone

end Journey

/-! ### Mixed lists -/

/-- A list that is made of the elements of others, each of which keeps its order. -/
inductive Interleaved {α : Type} : List (List α) → List α → Prop where
  | nil {ls : List (List α)} (h : ∀ l ∈ ls, l = []) : Interleaved ls []
  | cons (front : List (List α)) (a : α) (l : List α) (back : List (List α)) {out : List α}
      (h : Interleaved (front ++ l :: back) out) :
      Interleaved (front ++ (a :: l) :: back) (a :: out)

theorem Interleaved.perm {α : Type} {ls : List (List α)} {out : List α} (h : Interleaved ls out) :
    out.Perm ls.flatten := by
  induction h with
  | nil h =>
    rw [List.flatten_eq_nil_iff.mpr h]
  | cons front a l back h ih =>
    rw [List.flatten_append, List.flatten_cons] at ih ⊢
    exact (ih.cons a).trans List.perm_middle.symm

/-! ### Conservation -/

namespace Metrics

/-- What is counted for journeys of which some are stuck. What passes one stage enters the next
    one, what fails at a stage is a result for that stage, and every journey has one result. -/
structure Conserved (m : Metrics) (journeys stuck : Nat) : Prop where
  interpreted :
    m.invocations .interpret true + m.invocations .interpret false + stuck = journeys
  linked : m.invocations .link true + m.invocations .link false = m.invocations .interpret true
  executed :
    m.invocations .execute true + m.invocations .execute false = m.invocations .link true
  passed : m.results .pass = m.invocations .execute true
  failedLink : m.results (.failedAt .link) = m.invocations .link false
  failedExecute : m.results (.failedAt .execute) = m.invocations .execute false
  failedInterpret :
    m.results (.failedAt .interpret) = m.invocations .interpret false + stuck
  timed : ∀ s, m.observations s = m.invocations s true + m.invocations s false
  ended : m.resultTotal = journeys

/-- The metrics after some ticks, if they were clear before. -/
def ofTicks (ts : List Tick) : Metrics := ({} : Metrics).ticked ts

section OfTicks

variable (ts : List Tick)

theorem invocations_ofTicks (s : Stage) (passed : Bool) :
    (ofTicks ts).invocations s passed = ts.countP (Tick.isInvoked s passed) := by
  rw [ofTicks, invocations_ticked]
  exact Nat.zero_add _

theorem observations_ofTicks (s : Stage) :
    (ofTicks ts).observations s = ts.countP (Tick.isLasted s) := by
  rw [ofTicks, observations_ticked]
  exact Nat.zero_add _

theorem results_ofTicks (v : Verdict) : (ofTicks ts).results v = ts.countP (Tick.isEnded v) := by
  rw [ofTicks, results_ticked]
  exact Nat.zero_add _

theorem resultTotal_ofTicks : (ofTicks ts).resultTotal = ts.countP Tick.isEnd := by
  rw [ofTicks, resultTotal_ticked]
  exact Nat.zero_add _

end OfTicks

theorem Conserved.none : Conserved (ofTicks []) 0 0 :=
  ⟨rfl, rfl, rfl, rfl, rfl, rfl, rfl, fun _ => rfl, rfl⟩

/-- Journeys with their own metrics are counted together. -/
theorem Conserved.append {ts ts' : List Tick} {journeys journeys' stuck stuck' : Nat}
    (h : Conserved (ofTicks ts) journeys stuck) (h' : Conserved (ofTicks ts') journeys' stuck') :
    Conserved (ofTicks (ts ++ ts')) (journeys + journeys') (stuck + stuck') := by
  have hinvocations : ∀ s passed, (ofTicks (ts ++ ts')).invocations s passed =
      (ofTicks ts).invocations s passed + (ofTicks ts').invocations s passed := by
    simp [invocations_ofTicks]
  have hobservations : ∀ s, (ofTicks (ts ++ ts')).observations s =
      (ofTicks ts).observations s + (ofTicks ts').observations s := by
    simp [observations_ofTicks]
  have hresults : ∀ v, (ofTicks (ts ++ ts')).results v =
      (ofTicks ts).results v + (ofTicks ts').results v := by
    simp [results_ofTicks]
  have htotal : (ofTicks (ts ++ ts')).resultTotal =
      (ofTicks ts).resultTotal + (ofTicks ts').resultTotal := by
    simp [resultTotal_ofTicks]
  obtain ⟨h₁, h₂, h₃, h₄, h₅, h₆, h₇, h₈, h₉⟩ := h
  obtain ⟨h₁', h₂', h₃', h₄', h₅', h₆', h₇', h₈', h₉'⟩ := h'
  refine ⟨?_, ?_, ?_, ?_, ?_, ?_, ?_, fun s => ?_, ?_⟩ <;>
    simp only [hinvocations, hobservations, hresults, htotal]
  case refine_8 =>
    have := h₈ s
    have := h₈' s
    omega
  all_goals omega

/-- The order of the ticks does not matter. -/
theorem Conserved.perm {ts ts' : List Tick} {journeys stuck : Nat}
    (h : Conserved (ofTicks ts) journeys stuck) (hperm : ts'.Perm ts) :
    Conserved (ofTicks ts') journeys stuck := by
  -- Every value is a count, and counting does not depend on the order.
  have hinvocations : (ofTicks ts').invocations = (ofTicks ts).invocations := by
    funext s passed
    rw [invocations_ofTicks, invocations_ofTicks, hperm.countP_eq]
  have hobservations : (ofTicks ts').observations = (ofTicks ts).observations := by
    funext s
    rw [observations_ofTicks, observations_ofTicks, hperm.countP_eq]
  have hresults : (ofTicks ts').results = (ofTicks ts).results := by
    funext v
    rw [results_ofTicks, results_ofTicks, hperm.countP_eq]
  have htotal : (ofTicks ts').resultTotal = (ofTicks ts).resultTotal := by
    rw [resultTotal_ofTicks, resultTotal_ofTicks, hperm.countP_eq]
  obtain ⟨h₁, h₂, h₃, h₄, h₅, h₆, h₇, h₈, h₉⟩ := h
  constructor <;> simp only [hinvocations, hobservations, hresults, htotal] <;> assumption

/-- Errors do not count. -/
theorem Conserved.of_errors {ts : List Tick} (h : ∀ t ∈ ts, ∃ label, t = .error label) :
    Conserved (ofTicks ts) 0 0 := by
  induction ts with
  | nil => exact .none
  | cons t ts ih =>
    obtain ⟨label, rfl⟩ := h t List.mem_cons_self
    have hone : Conserved (ofTicks [.error label]) 0 0 := by
      constructor <;> intros <;> rfl
    exact hone.append (ih fun t ht => h t (List.mem_cons_of_mem _ ht))

end Metrics

/-! ### One journey -/

theorem Stage.distinct : interpret ≠ link ∧ interpret ≠ execute ∧ link ≠ execute := by decide

namespace Course

/-- A stage is timed each time it is invoked, and a case ends once. -/
theorem Onward.counts {stages : List Stage} {ts : List Tick} (h : Onward stages ts) :
    (∀ s, ts.countP (Tick.isLasted s) =
      ts.countP (Tick.isInvoked s true) + ts.countP (Tick.isInvoked s false)) ∧
    ts.countP Tick.isEnd = 1 := by
  induction h with
  | passed => exact ⟨fun s => rfl, rfl⟩
  | failed s rest d =>
    refine ⟨fun s' => ?_, rfl⟩
    simp [List.countP_cons, Tick.isLasted, Tick.isInvoked]
  | @went s d rest ts h ih =>
    refine ⟨fun s' => ?_, ?_⟩
    · have hrest := ih.1 s'
      by_cases hs : s = s' <;> simp [Tick.isLasted, Tick.isInvoked, hs] <;> omega
    · simpa [List.countP_cons, Tick.isEnd] using ih.2

/-- A case fails at one of the stages or goes through all of them. -/
theorem Onward.all_cases {ts : List Tick} (h : Onward Stage.all ts) : ∃ d₁ d₂ d₃,
    ts = [.invoked .interpret false, .lasted .interpret d₁, .ended (.failedAt .interpret)] ∨
    ts = [.invoked .interpret true, .lasted .interpret d₁,
      .invoked .link false, .lasted .link d₂, .ended (.failedAt .link)] ∨
    ts = [.invoked .interpret true, .lasted .interpret d₁, .invoked .link true, .lasted .link d₂,
      .invoked .execute false, .lasted .execute d₃, .ended (.failedAt .execute)] ∨
    ts = [.invoked .interpret true, .lasted .interpret d₁, .invoked .link true, .lasted .link d₂,
      .invoked .execute true, .lasted .execute d₃, .ended .pass] := by
  cases h with
  | failed _ _ d₁ => exact ⟨d₁, d₁, d₁, .inl rfl⟩
  | went _ d₁ h =>
    cases h with
    | failed _ _ d₂ => exact ⟨d₁, d₂, d₂, .inr (.inl rfl)⟩
    | went _ d₂ h =>
      cases h with
      | failed _ _ d₃ => exact ⟨d₁, d₂, d₃, .inr (.inr (.inl rfl))⟩
      | went _ d₃ h =>
        cases h
        exact ⟨d₁, d₂, d₃, .inr (.inr (.inr rfl))⟩

/-- The flow is conserved for a case that has all stages before it. -/
theorem Onward.conserved {ts : List Tick} (h : Onward Stage.all ts) :
    (Metrics.ofTicks ts).Conserved 1 0 := by
  obtain ⟨hlink, hexecute, hlast⟩ := Stage.distinct
  refine ⟨?_, ?_, ?_, ?_, ?_, ?_, ?_, fun s => ?_, ?_⟩
  case refine_8 =>
    rw [Metrics.observations_ofTicks, Metrics.invocations_ofTicks, Metrics.invocations_ofTicks]
    exact h.counts.1 s
  case refine_9 =>
    rw [Metrics.resultTotal_ofTicks]
    exact h.counts.2
  all_goals
    simp only [Metrics.invocations_ofTicks, Metrics.results_ofTicks]
    obtain ⟨d₁, d₂, d₃, rfl | rfl | rfl | rfl⟩ := h.all_cases <;>
      simp [Tick.isInvoked, Tick.isEnded, hlink, hlink.symm, hexecute, hexecute.symm, hlast,
        hlast.symm]

/-- The flow is conserved for a case that ends. -/
theorem Ahead.conserved {left : List Text} {stuck : Bool} {ts : List Tick}
    (h : Ahead (.clearing left) stuck ts) :
    (Metrics.ofTicks ts).Conserved 1 (if stuck then 1 else 0) := by
  cases stuck with
  | true =>
    obtain rfl : ts = [.ended (.failedAt .interpret)] := h
    obtain ⟨hlink, hexecute, _⟩ := Stage.distinct
    refine ⟨?_, ?_, ?_, ?_, ?_, ?_, ?_, fun s => rfl, rfl⟩ <;>
      simp [Metrics.invocations_ofTicks, Metrics.results_ofTicks, Tick.isInvoked, Tick.isEnded,
        hlink, hexecute]
  | false =>
    obtain ⟨front, rest, rfl, hfront, hrest⟩ := h
    exact (Metrics.Conserved.of_errors hfront).append hrest.conserved

end Course

theorem Journey.Completed.conserved {k : Journey} (h : k.Completed) :
    (Metrics.ofTicks k.ticks).Conserved 1 (if k.stuck then 1 else 0) := by
  obtain ⟨r, hr⟩ := h
  exact (k.course.ahead_route k.tools k.id k.case hr).conserved

/-! ### Any number of journeys -/

/-- The flow is conserved for journeys that are made one after the other. -/
theorem Journey.conserved_flatten {journeys : List Journey} (h : ∀ k ∈ journeys, k.Completed) :
    (Metrics.ofTicks (journeys.map ticks).flatten).Conserved journeys.length
      (journeys.countP stuck) := by
  induction journeys with
  | nil => exact .none
  | cons k journeys ih =>
    have hfirst := (h k List.mem_cons_self).conserved
    have hrest := ih fun k' hk' => h k' (List.mem_cons_of_mem k hk')
    rw [List.map_cons, List.flatten_cons, List.length_cons, List.countP_cons,
      Nat.add_comm journeys.length, Nat.add_comm (journeys.countP stuck)]
    exact hfirst.append hrest

/-- What is counted for completed journeys adds up, whatever the moves of each of them find and
    however the updates of the metrics are mixed.

    - A move updates the metrics by its ticks and not otherwise. A journey that is left alone is
      a run, and it is stuck exactly if the artifacts cannot be removed.
    - If the metrics were clear before the journeys, the flow is conserved after them. -/
theorem Journey.flow_conserved (journeys : List Journey) (hdone : ∀ k ∈ journeys, k.Completed)
    {ts : List Tick} (h : Interleaved (journeys.map ticks) ts) :
    (∀ k ∈ journeys, ∀ q ∈ k.moves, (k.course.move k.tools k.id k.case q).2.metrics =
      q.2.metrics.ticked (k.course.ticksOf k.tools k.id k.case q)) ∧
    (∀ {σ : Type} (c : Course) (tools : Toolchain σ) (id : Text) (case : Case) (w : World σ),
      (alone c tools id case w).Completed ∧
      (alone c tools id case w).stuck = ((c.artifacts case).clean w.disk).2.isSome ∧
      (c.run tools id case w).2.metrics = w.metrics.ticked (alone c tools id case w).ticks) ∧
    (({} : Metrics).ticked ts).Conserved journeys.length (journeys.countP stuck) := by
  refine ⟨?_, ?_, ?_⟩
  · intro k _ q _
    exact k.course.metrics_move k.tools k.id k.case q.1 q.2
  · intro σ c tools id case w
    exact ⟨alone_completed c tools id case w, alone_stuck c tools id case w,
      alone_ticks c tools id case w⟩
  · exact (conserved_flatten hdone).perm h.perm

namespace Sample

/-- The scratch directory with a directory in the place of the assembly. -/
def blocked : Disk :=
  ((disk 0o755).put assembly (.dir 0o755 ⟨0, 0⟩)).put (assembly ++ [("x" : Text)]) stale

/-- Three journeys: one passes, one finds no assembly to link, and one is stuck. -/
def journeys : List Journey :=
  [Journey.alone course emitting "r" case (world (disk 0o755)),
   Journey.alone course idle "r" case (world (disk 0o755)),
   Journey.alone course idle "r" case (world blocked)]

/-- What is counted for each of them. -/
def counted : List (List Tick) :=
  [[.invoked .interpret true, .lasted .interpret Duration.zero, .invoked .link true,
    .lasted .link Duration.zero, .invoked .execute true, .lasted .execute Duration.zero,
    .ended .pass],
   [.invoked .interpret true, .lasted .interpret Duration.zero, .invoked .link false,
    .lasted .link Duration.zero, .ended (.failedAt .link)],
   [.ended (.failedAt .interpret)]]

/-- An order in which it can be counted: the journeys overlap, and between the two updates for
    a stage there are others. -/
def mixed : List Tick :=
  [.invoked .interpret true, .invoked .interpret true, .ended (.failedAt .interpret),
   .lasted .interpret Duration.zero, .lasted .interpret Duration.zero, .invoked .link true,
   .invoked .link false, .lasted .link Duration.zero, .ended (.failedAt .link),
   .lasted .link Duration.zero, .invoked .execute true, .lasted .execute Duration.zero,
   .ended .pass]

theorem counted_mixed : Interleaved counted mixed := by
  -- The first and the second journey begin, and the third one is counted at once.
  refine .cons [] _ _ _ (.cons [_] _ _ _ (.cons [_, _] _ _ _ ?_))
  refine .cons [] _ _ _ (.cons [_] _ _ _ ?_)
  -- The second journey ends while the first one is linked.
  refine .cons [] _ _ _ (.cons [_] _ _ _ (.cons [_] _ _ _ (.cons [_] _ _ _ ?_)))
  refine .cons [] _ _ _ (.cons [] _ _ _ (.cons [] _ _ _ (.cons [] _ _ _ (.nil ?_))))
  simp

/-- Overlapping journeys, one of which is stuck. -/
theorem flow_conserved_mixed :
    (∀ k ∈ journeys, k.Completed) ∧ Interleaved (journeys.map Journey.ticks) mixed ∧
      (({} : Metrics).ticked mixed).Conserved 3 1 := by
  have hdone : ∀ k ∈ journeys, k.Completed := by
    intro k hk
    simp only [journeys, List.mem_cons, List.not_mem_nil, or_false] at hk
    rcases hk with rfl | rfl | rfl <;> exact Journey.alone_completed _ _ _ _ _
  have hcounted : journeys.map Journey.ticks = counted := by decide +kernel
  have hmixed : Interleaved (journeys.map Journey.ticks) mixed := by
    rw [hcounted]
    exact counted_mixed
  have hstuck : journeys.countP Journey.stuck = 1 := by decide +kernel
  have hconserved := (Journey.flow_conserved journeys hdone hmixed).2.2
  rw [hstuck] at hconserved
  exact ⟨hdone, hmixed, hconserved⟩

end Sample

end Gauntlet
