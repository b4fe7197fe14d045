import Gauntlet.Proofs.Collector
import Gauntlet.Proofs.Pool
import Gauntlet.Rehearsal
import Mathlib.Data.List.Perm.Subperm

/-! # Runs in their surroundings

  What a run comes to, in every schedule of its pool and whatever the surroundings do
  meanwhile.

  - `Serially` and `Conducts` are the runs of `serial` and `conduct` with surroundings
    that may change the world between any two steps. They may cancel the run at any
    moment, but a cancellation is never taken back. `conduct_conducts`: what `conduct`
    gives is one of these runs.
  - `Conducts.outcome`: a run that is not cancelled by the time it ends has carried out
    every case once and filled every slot. A run that is cancelled has no result.
  - So the schedule does not show: a run by a pool and a run one by one agree.
-/

namespace Gauntlet.Run

variable {ω : Type} {e : Executor ω} {id : Text} {cases : List Case}

/-! ### Surroundings -/

/-- A cancelled run stays cancelled while a case is carried out. -/
def Executor.Steady (e : Executor ω) : Prop :=
  ∀ id c w, e.cancelled w = true → e.cancelled (e.carryOut id c w).2 = true

/-- What the surroundings may make of a world: anything, but a cancelled run stays
    cancelled. -/
def Executor.Disturbs (e : Executor ω) (w w' : ω) : Prop :=
  e.cancelled w = true → e.cancelled w' = true

theorem Executor.Disturbs.refl (e : Executor ω) (w : ω) : e.Disturbs w w := fun h => h

/-- A run that is not cancelled afterwards was not cancelled before. -/
theorem Executor.Disturbs.uncancelled {w w' : ω} (h : e.Disturbs w w')
    (hc : e.cancelled w' = false) : e.cancelled w = false := by
  cases hw : e.cancelled w with
  | false => rfl
  | true => exact absurd (h hw) (by rw [hc]; exact Bool.false_ne_true)

/-- The pair of an index and a result that carrying out its case gave. -/
def Executed (e : Executor ω) (id : Text) (cases : List Case) (p : Nat × Option CaseResult) :
    Prop :=
  ∃ c v, cases[p.1]? = some c ∧ p.2 = (e.carryOut id c v).1

/-- Cases carried out one after the other. The pairs are the cases carried out, and the
    world is the one in which the loop ends. -/
inductive Serially (e : Executor ω) (id : Text) : (index : Nat) → List Case → Run → ω →
    (done : List (Nat × Option CaseResult)) → Except Fault Run → ω → Prop where
  | finished {i : Nat} {r : Run} {w : ω} : Serially e id i [] r w [] (.ok r) w
  | disturbed {i : Nat} {cs : List Case} {r : Run} {w v w' : ω}
      {done : List (Nat × Option CaseResult)} {res : Except Fault Run}
      (hd : e.Disturbs w v) (h : Serially e id i cs r v done res w') :
      Serially e id i cs r w done res w'
  | interrupted {i : Nat} {c : Case} {cs : List Case} {r : Run} {w : ω}
      (hc : e.cancelled w = true) :
      Serially e id i (c :: cs) r w [] (.error .interrupted) w
  | refused {i : Nat} {c : Case} {cs : List Case} {r : Run} {w v : ω} {f : Refusal}
      (hc : e.cancelled w = false) (hd : e.Disturbs w v)
      (hr : record (some r) i (e.carryOut id c v).1 = .error f) :
      Serially e id i (c :: cs) r w [(i, (e.carryOut id c v).1)] (.error (.refused f))
        (e.carryOut id c v).2
  | recorded {i : Nat} {c : Case} {cs : List Case} {r r' : Run} {w v w' : ω}
      {done : List (Nat × Option CaseResult)} {res : Except Fault Run}
      (hc : e.cancelled w = false) (hd : e.Disturbs w v)
      (hr : record (some r) i (e.carryOut id c v).1 = .ok r')
      (h : Serially e id (i + 1) cs r' (e.carryOut id c v).2 done res w') :
      Serially e id i (c :: cs) r w ((i, (e.carryOut id c v).1) :: done) res w'

/-- All cases carried out, one by one or by a pool in some schedule, and the run concluded.
    The world is the one in which the run is looked at for the last time. -/
inductive Conducts (e : Executor ω) (workers : Nat) (id : Text) (start : ZonedInstant)
    (cases : List Case) (w₀ : ω) :
    (done : List (Nat × Option CaseResult)) → Except Fault Run → ω → Prop where
  | oneByOne {done : List (Nat × Option CaseResult)} {res : Except Fault Run} {w w' : ω}
      (hp : inParallel workers cases = false)
      (h : Serially e id 0 cases (Run.empty id cases.length false start) w₀ done res w)
      (hd : e.Disturbs w w') :
      Conducts e workers id start cases w₀ done (concluded e res w') w'
  | byPool {k : Nat} {done : List (Nat × Option CaseResult)}
      {s : Pool.State (Option CaseResult)} {w w' : ω}
      (hp : inParallel workers cases = true)
      (hq : (Pool.Shape.mk cases.length workers).hasQueues = true)
      (h : Pool.Reaches ⟨cases.length, workers⟩ (jobsOf e id cases) w₀ k done s w)
      (he : s.ended = true) (hd : e.Disturbs w w') :
      Conducts e workers id start cases w₀ done
        (concluded e
          (settled e cases.length (Run.empty id cases.length true start) s.collected w) w') w'
  | unqueued (hp : inParallel workers cases = true)
      (hq : (Pool.Shape.mk cases.length workers).hasQueues = false) :
      Conducts e workers id start cases w₀ [] (concluded e (.error (.refused .noQueue)) w₀) w₀

/-! ### The runs that are conducted -/

theorem serial_serially (e : Executor ω) (id : Text) (i : Nat) (cs : List Case) (r : Run) (w : ω) :
    ∃ done, Serially e id i cs r w done (serial e id i cs r w).1 (serial e id i cs r w).2 := by
  induction cs generalizing i r w with
  | nil => exact ⟨[], .finished⟩
  | cons c cs ih =>
    rw [serial]
    cases hc : e.cancelled w with
    | true => exact ⟨[], .interrupted hc⟩
    | false =>
      simp only [Bool.false_eq_true, if_false]
      cases hr : record (some r) i (e.carryOut id c w).1 with
      | error f => exact ⟨_, .refused hc (.refl e w) hr⟩
      | ok r' =>
        obtain ⟨done, h⟩ := ih (i + 1) r' (e.carryOut id c w).2
        exact ⟨_, .recorded hc (.refl e w) hr h⟩

/-- The jobs of a steady executor stay cancelled. -/
theorem jobsOf_steady (h : e.Steady) (id : Text) (cases : List Case) :
    (jobsOf e id cases).Steady := by
  intro i w hc
  simp only [jobsOf] at hc ⊢
  split
  · exact h id _ w hc
  · exact hc

/-- What is conducted is a run in its surroundings. -/
theorem conduct_conducts (hs : e.Steady) (workers : Nat) (id : Text) (start : ZonedInstant)
    (cases : List Case) (w : ω) :
    ∃ done, Conducts e workers id start cases w done
      (conduct e workers id start cases w).1 (conduct e workers id start cases w).2 := by
  unfold conduct
  cases hp : inParallel workers cases with
  | false =>
    obtain ⟨done, h⟩ :=
      serial_serially e id 0 cases (Run.empty id cases.length false start) w
    exact ⟨done, .oneByOne hp h (.refl e _)⟩
  | true =>
    simp only [if_true, Run.byPool]
    cases hq : (Pool.Shape.mk cases.length workers).hasQueues with
    | false => exact ⟨[], .unqueued hp hq⟩
    | true =>
      have hworkers : 0 < workers := by
        simp only [inParallel, Bool.and_eq_true, decide_eq_true_eq] at hp
        omega
      obtain ⟨k, done, s, hreach, hended, hcollected⟩ :=
        Pool.complete_reaches (jobsOf_steady hs id cases)
          (show 0 < (Pool.Shape.mk cases.length workers).workers from hworkers) w
      simp only [Bool.not_true, Bool.false_eq_true, if_false, pooled, hcollected]
      exact ⟨done, .byPool hp hq hreach hended (.refl e _)⟩

/-! ### One by one -/

/-- What is carried out one by one is carried out in order, with the executor's results. -/
theorem Serially.executed {i : Nat} {cs : List Case} {r : Run} {w w' : ω}
    {done : List (Nat × Option CaseResult)} {res : Except Fault Run}
    (h : Serially e id i cs r w done res w') (hdrop : cases.drop i = cs) :
    ∀ p ∈ done, Executed e id cases p := by
  have hhead : ∀ {i c cs}, cases.drop i = c :: cs →
      cases[i]? = some c ∧ cases.drop (i + 1) = cs := by
    intro i c cs hd
    refine ⟨?_, ?_⟩
    · rw [← List.head?_drop, hd, List.head?_cons]
    · rw [← List.tail_drop, hd, List.tail_cons]
  induction h with
  | finished => simp
  | disturbed _ _ ih => exact ih hdrop
  | interrupted _ => simp
  | @refused i c cs r w v f _ _ _ =>
    intro p hp
    rw [List.mem_singleton] at hp
    subst hp
    exact ⟨c, v, (hhead hdrop).1, rfl⟩
  | @recorded i c cs r r' w v w' done res _ _ _ _ ih =>
    intro p hp
    rcases List.mem_cons.mp hp with rfl | hp
    · exact ⟨c, v, (hhead hdrop).1, rfl⟩
    · exact ih (hhead hdrop).2 p hp

/-- The loop over the cases is interrupted in a cancelled run, or fills one slot after the
    other. -/
theorem Serially.outcome (hsome : ∀ id c w, (e.carryOut id c w).1.isSome = true)
    {i : Nat} {cs : List Case} {r : Run} {w w' : ω}
    {done : List (Nat × Option CaseResult)} {res : Except Fault Run}
    (h : Serially e id i cs r w done res w')
    (hfree : ∀ j, i ≤ j → j < i + cs.length → r.results[j]? = some none) :
    (res = .error .interrupted ∧ e.cancelled w' = true) ∨
    ∃ l, done = l.map (fun p => (p.1, some p.2)) ∧ l.map Prod.fst = List.range' i cs.length ∧
      res = .ok (fillAll l r) := by
  induction h with
  | finished => exact Or.inr ⟨[], rfl, rfl, rfl⟩
  | disturbed _ _ ih => exact ih hfree
  | interrupted hc => exact Or.inl ⟨rfl, hc⟩
  | @refused i c cs r w v f _ _ hr =>
    obtain ⟨x, hx⟩ := Option.isSome_iff_exists.mp (hsome id c v)
    rw [hx, record_empty (hfree i (Nat.le_refl i) (by simp))] at hr
    exact absurd hr (by simp)
  | @recorded i c cs r r' w v w' done res _ _ hr _ ih =>
    obtain ⟨x, hx⟩ := Option.isSome_iff_exists.mp (hsome id c v)
    rw [hx, record_empty (hfree i (Nat.le_refl i) (by simp))] at hr
    obtain rfl := Except.ok.inj hr
    have hrest : ∀ j, i + 1 ≤ j → j < i + 1 + cs.length →
        (r.fill i x).results[j]? = some none := by
      intro j hj hlt
      rw [results_fill, List.getElem?_set_ne (by omega)]
      refine hfree j (by omega) ?_
      rw [List.length_cons]
      omega
    refine (ih hrest).imp_right ?_
    rintro ⟨l, rfl, hl, rfl⟩
    refine ⟨(i, x) :: l, ?_, ?_, rfl⟩
    · rw [hx, List.map_cons]
    · rw [List.map_cons, hl, List.length_cons, List.range'_succ]

/-! ### By a pool -/

/-- A job that is carried out is a case that is carried out. -/
theorem executed_of_reaches {workers k : Nat} {w₀ w : ω}
    {done : List (Nat × Option CaseResult)} {s : Pool.State (Option CaseResult)}
    (hs : e.Steady)
    (h : Pool.Reaches ⟨cases.length, workers⟩ (jobsOf e id cases) w₀ k done s w) :
    ∀ p ∈ done, Executed e id cases p := by
  intro p hp
  have hlt : p.1 < cases.length := (h.ledger (jobsOf_steady hs id cases)).lt_of_mem_done hp
  obtain ⟨v, hv⟩ := h.outcome hp
  have hcase : cases[p.1]? = some cases[p.1] := List.getElem?_eq_getElem hlt
  refine ⟨cases[p.1], v, hcase, ?_⟩
  rw [hv]
  simp only [jobsOf, hcase]

/-- Pairs of an index and a result, where there always is a result. -/
theorem exists_results (hsome : ∀ id c w, (e.carryOut id c w).1.isSome = true)
    {done : List (Nat × Option CaseResult)} (h : ∀ p ∈ done, Executed e id cases p) :
    ∃ l : List (Nat × CaseResult), done = l.map fun p => (p.1, some p.2) := by
  induction done with
  | nil => exact ⟨[], rfl⟩
  | cons p rest ih =>
    obtain ⟨l, rfl⟩ := ih fun q hq => h q (List.mem_cons_of_mem p hq)
    obtain ⟨c, v, _, hp⟩ := h p List.mem_cons_self
    obtain ⟨x, hx⟩ := Option.isSome_iff_exists.mp (hsome id c v)
    refine ⟨(p.1, x) :: l, ?_⟩
    rw [List.map_cons, ← hx, ← hp]

theorem map_fst_results (l : List (Nat × CaseResult)) :
    (l.map fun p => (p.1, some p.2)).map Prod.fst = l.map Prod.fst := by
  rw [List.map_map]
  rfl

/-- What a pool has collected so far can be recorded in a new run, whatever the schedule. -/
theorem recordAll_collected (hs : e.Steady)
    (hsome : ∀ id c w, (e.carryOut id c w).1.isSome = true)
    {workers k : Nat} {w₀ w : ω} {done : List (Nat × Option CaseResult)}
    {s : Pool.State (Option CaseResult)}
    (h : Pool.Reaches ⟨cases.length, workers⟩ (jobsOf e id cases) w₀ k done s w)
    (parallel : Bool) (start : ZonedInstant) :
    ∃ l : List (Nat × CaseResult), s.collected = l.map (fun p => (p.1, some p.2)) ∧
      recordAll s.collected (Run.empty id cases.length parallel start) =
        .ok (fillAll l (Run.empty id cases.length parallel start)) := by
  have hledger := h.ledger (jobsOf_steady hs id cases)
  obtain ⟨l, hl⟩ := exists_results hsome fun p hp =>
    executed_of_reaches hs h p (hledger.mem_done_of_collected hp)
  have hnodup := hledger.nodup_collected
  rw [hl, map_fst_results] at hnodup
  refine ⟨l, hl, ?_⟩
  rw [hl]
  refine recordAll_eq_fillAll hnodup ?_
  intro p hp
  have hmem : (p.1, some p.2) ∈ s.collected := by
    rw [hl]
    exact List.mem_map_of_mem (f := fun p : Nat × CaseResult => (p.1, some p.2)) hp
  exact getElem_empty id (hledger.lt_of_mem_done (hledger.mem_done_of_collected hmem)) _ _

/-- A pool that ends short of results has been cancelled. -/
theorem cancelled_of_short (hs : e.Steady) {workers k : Nat} (hw : 0 < workers) {w₀ w : ω}
    {done : List (Nat × Option CaseResult)} {s : Pool.State (Option CaseResult)}
    (h : Pool.Reaches ⟨cases.length, workers⟩ (jobsOf e id cases) w₀ k done s w)
    (he : s.ended = true) (hshort : s.collected.length ≠ cases.length) :
    e.cancelled w = true := by
  have hledger := h.ledger (jobsOf_steady hs id cases)
  rw [← Bool.not_eq_false]
  intro hc
  have hall := hledger.done_perm_range hw he hc
  refine hshort ?_
  rw [(hledger.collected_perm he).length_eq, ← List.length_map (f := Prod.fst), hall.length_eq,
    List.length_range]

/-! ### All cases -/

/-- The run in which every case has been carried out and recorded. -/
def completed (id : Text) (size : Nat) (parallel : Bool) (start : ZonedInstant)
    (l : List (Nat × CaseResult)) : Run :=
  let r := fillAll l (Run.empty id size parallel start)
  r.close r.duration

/-- A run that is cancelled by the time it ends has no result, and its failure wraps the
    cancellation. Any other run has carried out every case once and recorded it. -/
theorem Conducts.outcome (hs : e.Steady)
    (hsome : ∀ id c w, (e.carryOut id c w).1.isSome = true) {workers : Nat}
    (hq : 2 * workers < 0x8000000000000000) {start : ZonedInstant} {w₀ w : ω}
    {done : List (Nat × Option CaseResult)} {res : Except Fault Run}
    (h : Conducts e workers id start cases w₀ done res w) :
    (e.cancelled w = true ∧ ∃ f, res = .error f ∧ f.failure.unwrap = some cancellation) ∨
    (e.cancelled w = false ∧ ∃ l, done.Perm (l.map fun p => (p.1, some p.2)) ∧
      (l.map Prod.fst).Perm (List.range cases.length) ∧
      res = .ok (completed id cases.length (inParallel workers cases) start l)) := by
  cases h with
  | @oneByOne _ res w₁ _ hp h hd =>
    rcases h.outcome hsome (fun j _ hj => getElem_empty id (by omega) _ _) with
      ⟨rfl, hc⟩ | ⟨l, rfl, hl, rfl⟩
    · exact Or.inl ⟨hd hc, _, rfl, rfl⟩
    · cases hc : e.cancelled w with
      | true => exact Or.inl ⟨rfl, .interrupted, by simp [concluded, hc], rfl⟩
      | false =>
        refine Or.inr ⟨rfl, l, .refl _, ?_, ?_⟩
        · rw [hl, List.range_eq_range']
        · simp [concluded, hc, completed, hp]
  | @byPool k _ s w₁ _ hp hq h he hd =>
    have hworkers : 0 < workers := by
      simp only [inParallel, Bool.and_eq_true, decide_eq_true_eq] at hp
      omega
    have hledger := h.ledger (jobsOf_steady hs id cases)
    obtain ⟨l, hl, hrecord⟩ := recordAll_collected hs hsome h true start
    simp only [settled, hrecord, shortfall?]
    by_cases hlength : s.collected.length = cases.length
    · rw [if_pos hlength]
      cases hc : e.cancelled w with
      | true => exact Or.inl ⟨rfl, .interrupted, by simp [concluded, hc], rfl⟩
      | false =>
        have hall := hledger.done_perm_range hworkers he (hd.uncancelled hc)
        have hcollected := hledger.collected_perm he
        refine Or.inr ⟨rfl, l, ?_, ?_, ?_⟩
        · rw [← hl]
          exact hcollected.symm
        · rw [← map_fst_results, ← hl]
          exact (hcollected.map Prod.fst).trans hall
        · simp [concluded, hc, completed, hp]
    · rw [if_neg hlength]
      have hc := cancelled_of_short hs hworkers h he hlength
      refine Or.inl ⟨hd hc, _, rfl, ?_⟩
      rw [hc]
      rfl
  | unqueued hp hq' =>
    simp only [Pool.Shape.hasQueues, decide_eq_false_iff_not] at hq'
    exact absurd hq hq'

/-- Every case that a run has carried out was given its own result. -/
theorem Conducts.executed (hs : e.Steady) {workers : Nat} {start : ZonedInstant} {w₀ w : ω}
    {done : List (Nat × Option CaseResult)} {res : Except Fault Run}
    (h : Conducts e workers id start cases w₀ done res w) :
    ∀ p ∈ done, Executed e id cases p := by
  cases h with
  | oneByOne _ h _ => exact h.executed rfl
  | byPool _ _ h _ _ => exact executed_of_reaches hs h
  | unqueued _ _ => simp

/-! ### Completed runs -/

/-- The slots of a completed run hold what was recorded. -/
theorem results_completed {n : Nat} {l : List (Nat × CaseResult)}
    (hl : (l.map Prod.fst).Perm (List.range n)) (parallel : Bool) (start : ZonedInstant)
    {p : Nat × CaseResult} (hp : p ∈ l) :
    (completed id n parallel start l).results[p.1]? = some (some p.2) := by
  refine getElem_fillAll (hl.nodup_iff.mpr List.nodup_range) ?_ hp
  intro q hq
  have := List.mem_range.mp (hl.mem_iff.mp (List.mem_map_of_mem hq))
  simpa [Run.empty] using this

/-- Every slot of a completed run is filled. -/
theorem exists_result_completed {n i : Nat} {l : List (Nat × CaseResult)}
    (hl : (l.map Prod.fst).Perm (List.range n)) (hi : i < n) : ∃ x, (i, x) ∈ l := by
  obtain ⟨⟨_, x⟩, hmem, rfl⟩ := List.mem_map.mp (hl.mem_iff.mpr (List.mem_range.mpr hi))
  exact ⟨x, hmem⟩

theorem length_completed (id : Text) (n : Nat) (parallel : Bool) (start : ZonedInstant)
    (l : List (Nat × CaseResult)) : (completed id n parallel start l).results.length = n := by
  show (fillAll l (Run.empty id n parallel start)).results.length = n
  rw [length_fillAll]
  simp [Run.empty]

/-- The identifier, the mode and the start of a run have no part in recording. -/
theorem fillAll_relabelled (l : List (Nat × CaseResult)) (r : Run) (id : Text) (parallel : Bool)
    (start : ZonedInstant) :
    fillAll l { r with id, parallel, start } = { fillAll l r with id, parallel, start } := by
  induction l generalizing r with
  | nil => rfl
  | cons p rest ih => exact ih (r.fill p.1 p.2)

/-- A run in a rehearsal stays cancelled. -/
theorem rehearsal_steady (answer : Case → Option CaseResult) (cancelAt : Option Text) :
    (Rehearsal.executor answer cancelAt).Steady := by
  intro id c w h
  simp only [Rehearsal.executor] at h ⊢
  rw [h, Bool.true_or]

/-! ### Safety of the pool -/

/-- A pool has all results exactly if every index has been collected. -/
theorem length_collected_iff {workers k : Nat} {w₀ w : ω}
    {done : List (Nat × Option CaseResult)} {s : Pool.State (Option CaseResult)} (hs : e.Steady)
    (h : Pool.Reaches ⟨cases.length, workers⟩ (jobsOf e id cases) w₀ k done s w) :
    s.collected.length = cases.length ↔ ∀ i < cases.length, i ∈ s.collected.map Prod.fst := by
  have hledger := h.ledger (jobsOf_steady hs id cases)
  have hnodup := hledger.nodup_collected
  have hrange : s.collected.map Prod.fst ⊆ List.range cases.length := by
    intro i hi
    obtain ⟨p, hp, rfl⟩ := List.mem_map.mp hi
    exact List.mem_range.mpr (hledger.lt_of_mem_done (hledger.mem_done_of_collected hp))
  constructor
  · intro hlength i hi
    -- Different indices below a bound, as many as the bound: all of them.
    have hperm : (s.collected.map Prod.fst).Perm (List.range cases.length) :=
      (hnodup.subperm hrange).perm_of_length_le (by simp [hlength])
    exact hperm.mem_iff.mpr (List.mem_range.mpr hi)
  · intro hall
    have hperm : (s.collected.map Prod.fst).Perm (List.range cases.length) :=
      (List.perm_ext_iff_of_nodup hnodup List.nodup_range).mpr fun i =>
        ⟨fun hi => hrange hi, fun hi => hall i (List.mem_range.mp hi)⟩
    simpa using hperm.length_eq

/-- **The pool is safe.** At every moment of every schedule, cancelled or not: an index is
    collected at most once, only if there is a case with that index, and only with a
    result that carrying out this case gave, so that recording never refuses; and no more
    cases are being carried out than there are workers. A pool that ends misses nothing
    exactly if every index was collected, and otherwise its fault counts what was
    collected and wraps the cancellation, which has then happened. So a run, by a pool or
    not, that is cancelled when it is looked at for the last time fails with the
    cancellation; any other has a result, every case has been carried out exactly once,
    and every slot holds the result of its case. -/
theorem conducts_safely (hs : e.Steady)
    (hsome : ∀ id c w, (e.carryOut id c w).1.isSome = true) (cases : List Case)
    (workers : Nat) (hw : 1 ≤ workers) (hq : 2 * workers < 0x8000000000000000) (id : Text) (w₀ : ω) :
    (∀ k done s w,
      Pool.Reaches ⟨cases.length, workers⟩ (jobsOf e id cases) w₀ k done s w →
      (s.collected.map Prod.fst).Nodup ∧
      (∀ p ∈ s.collected, p.1 < cases.length ∧ p ∈ done ∧ Executed e id cases p) ∧
      (∀ parallel start,
        ∃ r, recordAll s.collected (Run.empty id cases.length parallel start) = .ok r) ∧
      s.running.length ≤ workers ∧
      (s.ended = true →
        (shortfall? s.collected.length cases.length (e.cancelled w) = none ↔
          ∀ i < cases.length, i ∈ s.collected.map Prod.fst) ∧
        ∀ f, shortfall? s.collected.length cases.length (e.cancelled w) = some f →
          e.cancelled w = true ∧
          f = .interruptedAfter s.collected.length cases.length true ∧
          f.failure.unwrap = some cancellation)) ∧
    ∀ start done res w, Conducts e workers id start cases w₀ done res w →
      (e.cancelled w = true → ∃ f, res = .error f ∧ f.failure.unwrap = some cancellation) ∧
      (e.cancelled w = false → ∃ r, res = .ok r) ∧
      ∀ r, res = .ok r →
        (done.map Prod.fst).Perm (List.range cases.length) ∧
        r.results.length = cases.length ∧
        ∀ p ∈ done, Executed e id cases p ∧ p.2.isSome = true ∧
          r.results[p.1]? = some p.2 := by
  refine ⟨?_, ?_⟩
  · intro k done s w h
    have hledger := h.ledger (jobsOf_steady hs id cases)
    refine ⟨hledger.nodup_collected, ?_, ?_, ?_, ?_⟩
    · intro p hp
      have hdone := hledger.mem_done_of_collected hp
      exact ⟨hledger.lt_of_mem_done hdone, hdone, executed_of_reaches hs h p hdone⟩
    · intro parallel start
      obtain ⟨l, _, hrecord⟩ := recordAll_collected hs hsome h parallel start
      exact ⟨_, hrecord⟩
    · have hstaff : s.idle + s.running.length + s.holding.length + s.left = workers :=
        hledger.staff
      omega
    · intro he
      refine ⟨?_, ?_⟩
      · rw [← length_collected_iff hs h]
        simp [shortfall?]
      · intro f hf
        by_cases hlength : s.collected.length = cases.length
        · simp [shortfall?, hlength] at hf
        · have hc := cancelled_of_short hs hw h he hlength
          simp only [shortfall?, if_neg hlength, hc, Option.some.injEq] at hf
          subst hf
          exact ⟨hc, rfl, rfl⟩
  · intro start done res w h
    rcases h.outcome hs hsome hq with ⟨hc, f, rfl, hf⟩ | ⟨hc, l, hperm, hl, rfl⟩
    · refine ⟨fun _ => ⟨f, rfl, hf⟩, fun hc' => ?_, fun r hr => ?_⟩
      · exact absurd (hc.symm.trans hc') (by simp)
      · exact absurd hr (by simp)
    · refine ⟨fun hc' => ?_, fun _ => ⟨_, rfl⟩, fun r hr => ?_⟩
      · exact absurd (hc'.symm.trans hc) (by simp)
      · obtain rfl := Except.ok.inj hr
        refine ⟨?_, length_completed _ _ _ _ _, ?_⟩
        · rw [← map_fst_results] at hl
          exact (hperm.map Prod.fst).trans hl
        · intro p hp
          obtain ⟨q, hq, rfl⟩ := List.mem_map.mp (hperm.mem_iff.mp hp)
          exact ⟨h.executed hs _ hp, rfl, results_completed hl _ _ hq⟩

/-- Three cases by two workers, the second of which cancels the run: there is no result. -/
theorem conducts_safely_cancelled :
    let e := Rehearsal.executor (fun c => some { case := c }) (some [98])
    let cases : List Case := [⟨[97], [97]⟩, ⟨[98], [98]⟩, ⟨[99], [99]⟩]
    e.Steady ∧ (∀ id c w, (e.carryOut id c w).1.isSome = true) ∧
    e.cancelled (conduct e 2 [114] ⟨Instant.yearOne, 0⟩ cases {}).2 = true ∧
    ∃ f, (conduct e 2 [114] ⟨Instant.yearOne, 0⟩ cases {}).1 = .error f ∧
      f.failure.unwrap = some cancellation := by
  intro e cases
  have hs : e.Steady := rehearsal_steady _ _
  have hsome : ∀ id c w, (e.carryOut id c w).1.isSome = true := fun _ _ _ => rfl
  have hc : e.cancelled (conduct e 2 [114] ⟨Instant.yearOne, 0⟩ cases {}).2 = true := by
    decide
  obtain ⟨done, h⟩ := conduct_conducts hs 2 [114] ⟨Instant.yearOne, 0⟩ cases {}
  have hsafe := (conducts_safely hs hsome cases 2 (by decide) (by decide) [114] {}).2
  exact ⟨hs, hsome, hc, (hsafe _ done _ _ h).1 hc⟩

/-! ### Agreement of schedules -/

section Answers

variable {answer : Case → CaseResult}

/-- Where a result depends on the case only, a completed list of results holds the answer
    to each case at its index. -/
theorem mem_iff_of_answers (ha : ∀ id c w, (e.carryOut id c w).1 = some (answer c))
    {done : List (Nat × Option CaseResult)} (hdone : ∀ p ∈ done, Executed e id cases p)
    {l : List (Nat × CaseResult)} (hperm : done.Perm (l.map fun p => (p.1, some p.2)))
    (hl : (l.map Prod.fst).Perm (List.range cases.length)) (p : Nat × CaseResult) :
    p ∈ l ↔ (cases[p.1]?).map answer = some p.2 := by
  have hgiven : ∀ q ∈ l, (cases[q.1]?).map answer = some q.2 := by
    intro q hq
    have hmem : (q.1, some q.2) ∈ done := hperm.mem_iff.mpr
      (List.mem_map_of_mem (f := fun p : Nat × CaseResult => (p.1, some p.2)) hq)
    obtain ⟨c, v, hc, hq2⟩ := hdone _ hmem
    rw [ha] at hq2
    simp only at hc hq2
    rw [hc, hq2, Option.map_some]
  refine ⟨hgiven p, ?_⟩
  intro hp
  obtain ⟨c, hc, _⟩ := Option.map_eq_some_iff.mp hp
  obtain ⟨x, hx⟩ := exists_result_completed hl (List.getElem?_eq_some_iff.mp hc).1
  have := hgiven _ hx
  rw [hp] at this
  obtain rfl := Option.some.inj this
  exact hx

/-- Where a result depends on the case only, the slots hold the answers to the cases. -/
theorem results_completed_of_answers {l : List (Nat × CaseResult)}
    (hmem : ∀ p, p ∈ l ↔ (cases[p.1]?).map answer = some p.2)
    (hl : (l.map Prod.fst).Perm (List.range cases.length)) (parallel : Bool)
    (start : ZonedInstant) :
    (completed id cases.length parallel start l).results =
      cases.map fun c => some (answer c) := by
  refine List.ext_getElem? ?_
  intro i
  by_cases hi : i < cases.length
  · obtain ⟨x, hx⟩ := exists_result_completed hl hi
    have hanswer := (hmem _).mp hx
    rw [results_completed hl parallel start hx, List.getElem?_map]
    simp only [List.getElem?_eq_getElem hi, Option.map_some, Option.some.injEq] at hanswer ⊢
    rw [hanswer]
  · have hlen := length_completed id cases.length parallel start l
    rw [List.getElem?_eq_none (by omega), List.getElem?_eq_none (by simpa using hi)]

/-- **The pool agrees with the loop.** Let the result of a case depend on the case only. In
    every schedule the pool takes a bounded number of steps, and goes on until it has
    ended. A run with any number of workers that is not cancelled has a result, whatever
    the schedule, and it is that of the run one by one: the results in the order of the
    cases, the totals, the status, the sum of the durations and the failing cases. The two
    differ in their identifier, their mode and the time at which they started. -/
theorem conducts_agree (hs : e.Steady)
    (ha : ∀ id c w, (e.carryOut id c w).1 = some (answer c)) (cases : List Case)
    (workers : Nat) (hw : 1 ≤ workers) (hq : 2 * workers < 0x8000000000000000) (id id' : Text)
    (start start' : ZonedInstant) (w₀ w₀' : ω) :
    (∀ k done s w,
      Pool.Reaches ⟨cases.length, workers⟩ (jobsOf e id cases) w₀ k done s w →
      k ≤ Pool.enough ⟨cases.length, workers⟩ ∧
      (s.ended = true ∨
        ∃ l, (Pool.step ⟨cases.length, workers⟩ (jobsOf e id cases) s w l).isSome = true)) ∧
    ∀ done res w, Conducts e workers id start cases w₀ done res w → e.cancelled w = false →
    ∀ done' res' w', Conducts e 1 id' start' cases w₀' done' res' w' → e.cancelled w' = false →
    ∃ r r', res = .ok r ∧ res' = .ok r' ∧
      r.results = (cases.map fun c => some (answer c)) ∧
      r = { r' with id, parallel := inParallel workers cases, start } ∧
      r.results = r'.results ∧ r.total = r'.total ∧ r.passed = r'.passed ∧
      r.failed = r'.failed ∧ r.status = r'.status ∧ r.duration = r'.duration ∧
      r.failedCases = r'.failedCases := by
  have hsome : ∀ id c w, (e.carryOut id c w).1.isSome = true := by
    intro id c w
    rw [ha]
    rfl
  refine ⟨?_, ?_⟩
  · intro k done s w h
    refine ⟨?_, ?_⟩
    · have := h.steps_add_remaining
      omega
    · cases he : s.ended with
      | true => exact Or.inl rfl
      | false =>
        obtain ⟨l, _, hl⟩ :=
          (h.ledger (jobsOf_steady hs id cases)).exists_candidate hw he
        exact Or.inr ⟨l, hl⟩
  · intro done res w h hc done' res' w' h' hc'
    have houtcome := (h.outcome hs hsome hq).resolve_left
      fun hf => absurd (hf.1.symm.trans hc) (by simp)
    have houtcome' := (h'.outcome hs hsome (by decide)).resolve_left
      fun hf => absurd (hf.1.symm.trans hc') (by simp)
    obtain ⟨_, l, hperm, hl, rfl⟩ := houtcome
    obtain ⟨_, l', hperm', hl', rfl⟩ := houtcome'
    have hmem := mem_iff_of_answers ha (h.executed hs) hperm hl
    have hmem' := mem_iff_of_answers ha (h'.executed hs) hperm' hl'
    -- Both lists hold the answers to the same cases, in some order.
    have hnodup := hl.nodup_iff.mpr List.nodup_range
    have hnodup' := hl'.nodup_iff.mpr List.nodup_range
    have hsame : l.Perm l' :=
      (List.perm_ext_iff_of_nodup hnodup.of_map hnodup'.of_map).mpr fun p =>
        (hmem p).trans (hmem' p).symm
    have heq : completed id cases.length (inParallel workers cases) start l =
        { completed id' cases.length (inParallel 1 cases) start' l' with
          id, parallel := inParallel workers cases, start } := by
      unfold completed
      rw [fillAll_perm hsame hnodup]
      exact congrArg (fun r : Run => r.close r.duration)
        (fillAll_relabelled l' (Run.empty id' cases.length (inParallel 1 cases) start') id
          (inParallel workers cases) start)
    refine ⟨_, _, rfl, rfl, results_completed_of_answers hmem hl _ _, heq, ?_⟩
    rw [heq]
    exact ⟨rfl, rfl, rfl, rfl, rfl, rfl, rfl⟩

end Answers

/-- Three cases by two workers give what the same cases give one by one. -/
theorem conducts_agree_three :
    let answer : Case → CaseResult := fun c => { case := c, duration := .ofNanos 5 }
    let e := Rehearsal.executor (fun c => some (answer c)) none
    let cases : List Case := [⟨[97], [97]⟩, ⟨[98], [98]⟩, ⟨[99], [99]⟩]
    e.Steady ∧ (∀ id c w, (e.carryOut id c w).1 = some (answer c)) ∧
    ∃ r r', (conduct e 2 [114] ⟨Instant.yearOne, 0⟩ cases {}).1 = .ok r ∧
      (conduct e 1 [115] ⟨Instant.yearOne, 0⟩ cases {}).1 = .ok r' ∧
      r.results = (cases.map fun c => some (answer c)) ∧ r.failedCases = r'.failedCases := by
  intro answer e cases
  have hs : e.Steady := rehearsal_steady _ _
  have ha : ∀ id c w, (e.carryOut id c w).1 = some (answer c) := fun _ _ _ => rfl
  have hc : e.cancelled (conduct e 2 [114] ⟨Instant.yearOne, 0⟩ cases {}).2 = false := by
    decide
  have hc' : e.cancelled (conduct e 1 [115] ⟨Instant.yearOne, 0⟩ cases {}).2 = false := by
    decide
  obtain ⟨done, h⟩ := conduct_conducts hs 2 [114] ⟨Instant.yearOne, 0⟩ cases {}
  obtain ⟨done', h'⟩ := conduct_conducts hs 1 [115] ⟨Instant.yearOne, 0⟩ cases {}
  obtain ⟨r, r', hr, hr', hresults, _, _, _, _, _, _, _, hfailed⟩ :=
    (conducts_agree hs ha cases 2 (by decide) (by decide) [114] [115]
      ⟨Instant.yearOne, 0⟩ ⟨Instant.yearOne, 0⟩ {} {}).2 done _ _ h hc done' _ _ h' hc'
  exact ⟨hs, ha, r, r', hr, hr', hresults, hfailed⟩

end Gauntlet.Run
