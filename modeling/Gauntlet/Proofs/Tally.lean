import Gauntlet.Proofs.Collector
import Mathlib.Algebra.Ring.Int.Defs

/-! # The totals of a run

  A run is changed by two calls only: a result is added, or the run is closed. `Entry` lists
  these calls with all the arguments they can be given, and `entered` says what becomes of
  the run. A call that is refused leaves it as it was.

  - `Tallied`: the totals count the slots, and the duration is the wrapping sum of what the
    slots hold. Every call keeps it (`Tallied.entered`), so it holds after any list of calls.
  - `taken`: the results that were recorded, in the order in which they came. But for what
    closing sets, the run depends on them only (`enteredAll_unsettled`), and not on their
    order.
-/

namespace Gauntlet

theorem Verdict.passed_iff (v : Verdict) : v.passed = true ↔ v = .pass := by
  cases v <;> simp [passed]

namespace Run

/-! ### Calls -/

/-- A call that is made on a run. -/
inductive Entry where
  /-- A result, which may be missing, is added at an index; `given` tells whether the call is
      given the run at all. -/
  | add (given : Bool) (index : Int) (result : Option CaseResult)
  /-- The run is closed after some time. -/
  | close (elapsed : Duration)

/-- The run after a call, and why the call was refused, if it was. -/
def entered (r : Run) : Entry → Run × Option Refusal
  | .add given i result =>
    match record (if given then some r else none) i result with
    | .ok r' => (r', none)
    | .error f => (r, some f)
  | .close elapsed => (r.close elapsed, none)

/-- The run after a list of calls. -/
def enteredAll (r : Run) (es : List Entry) : Run := es.foldl (fun r e => (r.entered e).1) r

/-- What makes a call refused: it has no run or no result, or there is no slot with its index,
    or the slot is filled. -/
def Unfit (r : Run) : Entry → Prop
  | .add given i result =>
    given = false ∨ result = none ∨ i < 0 ∨ (r.results.length : Int) ≤ i ∨
      ∃ c, r.results[i.toNat]? = some (some c)
  | .close _ => False

/-- The index and the result that a call records, if it does. -/
def taken? (r : Run) : Entry → Option (Nat × CaseResult)
  | .add true i (some c) =>
    match r.slot? i with
    | some none => some (i.toNat, c)
    | _ => none
  | _ => none

/-- The indices and results that a list of calls records. -/
def taken : Run → List Entry → List (Nat × CaseResult)
  | _, [] => []
  | r, e :: es => (r.taken? e).toList ++ taken (r.entered e).1 es

/-! ### What one call does -/

theorem slot?_eq_some {r : Run} {i : Int} {s : Option CaseResult} (h : r.slot? i = some s) :
    0 ≤ i ∧ r.results[i.toNat]? = some s := by
  unfold slot? at h
  split at h
  · simp at h
  · exact ⟨by omega, h⟩

/-- A call closes the run, or records a result in an empty slot, or is refused for a reason and
    changes nothing. -/
theorem entered_cases (r : Run) (e : Entry) :
    (∃ elapsed, e = .close elapsed ∧ r.entered e = (r.close elapsed, none) ∧ r.taken? e = none) ∨
    (∃ i c, e = .add true i (some c) ∧ 0 ≤ i ∧ r.results[i.toNat]? = some none ∧
      r.entered e = (r.fill i.toNat c, none) ∧ r.taken? e = some (i.toNat, c)) ∨
    (∃ f, r.entered e = (r, some f) ∧ r.taken? e = none ∧ r.Unfit e) := by
  rcases e with ⟨given, i, result⟩ | elapsed
  · refine Or.inr ?_
    cases given with
    | false => exact Or.inr ⟨.noRun, by cases result <;> rfl, rfl, Or.inl rfl⟩
    | true =>
      cases result with
      | none => exact Or.inr ⟨.noResult, rfl, rfl, Or.inr (Or.inl rfl)⟩
      | some c =>
        rcases hs : r.slot? i with _ | (_ | x)
        · refine Or.inr ⟨.outOfRange i r.results.length, by simp [entered, record, hs],
            by simp [taken?, hs], Or.inr (Or.inr ?_)⟩
          unfold slot? at hs
          split at hs
          · exact Or.inl ‹_›
          · have := List.getElem?_eq_none_iff.mp hs
            exact Or.inr (Or.inl (by omega))
        · obtain ⟨hi, hslot⟩ := slot?_eq_some hs
          exact Or.inl ⟨i, c, rfl, hi, hslot, by simp [entered, record, hs], by simp [taken?, hs]⟩
        · obtain ⟨_, hslot⟩ := slot?_eq_some hs
          exact Or.inr ⟨.recordedTwice i, by simp [entered, record, hs], by simp [taken?, hs],
            Or.inr (Or.inr (Or.inr (Or.inr ⟨x, hslot⟩)))⟩
  · exact Or.inl ⟨elapsed, rfl, rfl, rfl⟩

/-- A call is refused exactly if it is unfit. -/
theorem refused_iff_unfit (r : Run) (e : Entry) : (r.entered e).2.isSome = true ↔ r.Unfit e := by
  rcases r.entered_cases e with ⟨elapsed, rfl, h, _⟩ | ⟨i, c, rfl, hi, hslot, h, _⟩ | ⟨f, h, _, hf⟩
  · simp [h, Unfit]
  · -- The slot is there and empty, so none of the reasons applies.
    have hlt := (List.getElem?_eq_some_iff.mp hslot).1
    simp only [h, Unfit, hslot]
    simp
    omega
  · simp [h, hf]

theorem entered_of_refused {r : Run} {e : Entry} (h : (r.entered e).2.isSome = true) :
    (r.entered e).1 = r := by
  rcases r.entered_cases e with ⟨elapsed, rfl, he, _⟩ | ⟨i, c, rfl, _, _, he, _⟩ | ⟨f, he, _, _⟩ <;>
    simp_all

/-! ### Totals -/

/-- The slot holds a result that passed. -/
def slotPassed (s : Option CaseResult) : Bool := s.any fun c => c.verdict.passed

/-- The slot holds a result that failed. -/
def slotFailed (s : Option CaseResult) : Bool := s.any fun c => !c.verdict.passed

/-- A run with `n` slots whose totals count the slots, and whose duration is the sum of the
    durations in them, modulo 2^64. -/
structure Tallied (n : Nat) (r : Run) : Prop where
  size : r.results.length = n
  total : r.total = r.results.countP Option.isSome
  passed : r.passed = r.results.countP slotPassed
  failed : r.failed = r.results.countP slotFailed
  duration : r.duration = Duration.ofNanos (r.recorded.map fun c => c.duration.toInt).sum

theorem tallied_empty (id : Text) (n : Nat) (parallel : Bool) (start : ZonedInstant) :
    Tallied n (Run.empty id n parallel start) where
  size := by simp [Run.empty]
  total := by simp [Run.empty, List.countP_replicate]
  passed := by simp [Run.empty, List.countP_replicate, slotPassed]
  failed := by simp [Run.empty, List.countP_replicate, slotFailed]
  duration := by
    have hrecorded : (Run.empty id n parallel start).recorded = [] := by
      simp [recorded, Run.empty]
    rw [hrecorded]
    rfl

namespace Tallied

variable {n : Nat} {r : Run}

theorem close (h : Tallied n r) (elapsed : Duration) : Tallied n (r.close elapsed) :=
  ⟨h.size, h.total, h.passed, h.failed, h.duration⟩

/-- A result in an empty slot is counted once. -/
theorem fill (h : Tallied n r) {i : Nat} (hslot : r.results[i]? = some none) (c : CaseResult) :
    Tallied n (r.fill i c) := by
  obtain ⟨hi, hnone⟩ := List.getElem?_eq_some_iff.mp hslot
  -- Around the slot the list stays as it is.
  obtain ⟨front, back, hresults, _, hset⟩ : ∃ front back,
      r.results = front ++ r.results[i] :: back ∧ front.length = i ∧
        r.results.set i (some c) = front ++ some c :: back := List.exists_of_set hi
  rw [hnone] at hresults
  have hcount : ∀ p : Option CaseResult → Bool, p none = false →
      ((r.results.set i (some c)).countP p : Int) =
        r.results.countP p + if p (some c) then 1 else 0 := by
    intro p hp
    rw [hset, hresults]
    simp only [List.countP_append, List.countP_cons, hp]
    split
    · simp
      omega
    · simp
  refine ⟨by simpa using h.size, ?_, ?_, ?_, ?_⟩
  · rw [results_fill, hcount _ rfl, ← h.total]
    rfl
  · rw [results_fill, hcount _ rfl, ← h.passed]
    cases hc : c.verdict.passed <;> simp [Run.fill, slotPassed, hc]
  · rw [results_fill, hcount _ rfl, ← h.failed]
    cases hc : c.verdict.passed <;> simp [Run.fill, slotFailed, hc]
  · -- The duration of the new result stands between those of the others.
    have hbefore : r.recorded = (front.filterMap fun s => s) ++ back.filterMap fun s => s := by
      simp [recorded, hresults]
    have hafter : (r.fill i c).recorded =
        (front.filterMap fun s => s) ++ c :: back.filterMap fun s => s := by
      simp [recorded, hset]
    have hsum : ((r.fill i c).recorded.map fun x => x.duration.toInt).sum =
        (r.recorded.map fun x => x.duration.toInt).sum + c.duration.toInt := by
      rw [hbefore, hafter]
      simp only [List.map_append, List.map_cons, List.sum_append, List.sum_cons]
      omega
    show r.duration + c.duration = _
    rw [hsum, h.duration]
    show Duration.mk (_ + c.duration.nanos) = Duration.mk _
    rw [Int64.ofInt_add, Duration.toInt, Int64.ofInt_toInt]
    rfl

theorem entered (h : Tallied n r) (e : Entry) : Tallied n (r.entered e).1 := by
  rcases r.entered_cases e with ⟨elapsed, _, he, _⟩ | ⟨i, c, _, _, hslot, he, _⟩ | ⟨f, he, _, _⟩
  · rw [he]
    exact h.close elapsed
  · rw [he]
    exact h.fill hslot c
  · rw [he]
    exact h

/-- So the totals are right after any list of calls. -/
theorem enteredAll (h : Tallied n r) (es : List Entry) : Tallied n (r.enteredAll es) := by
  induction es generalizing r with
  | nil => exact h
  | cons e es ih => exact ih (h.entered e)

/-- What is filled has passed or failed. -/
theorem passed_add_failed (h : Tallied n r) : r.passed + r.failed = r.total := by
  rw [h.passed, h.failed, h.total]
  clear h
  induction r.results with
  | nil => rfl
  | cons s rest ih =>
    rcases s with _ | c
    · simpa [slotPassed, slotFailed] using ih
    · cases hc : c.verdict.passed <;> simp [slotPassed, slotFailed, hc] at ih ⊢ <;> omega

theorem failed_eq_length (h : Tallied n r) : r.failed = r.failedCases.length := by
  rw [h.failed, failedCases, failures, recorded]
  clear h
  induction r.results with
  | nil => rfl
  | cons s rest ih =>
    rcases s with _ | c
    · simpa [slotFailed] using ih
    · cases hc : c.verdict.passed <;> simpa [slotFailed, hc] using ih

/-- A closed run passes exactly if every slot is filled with a result that passed. -/
theorem status_close (h : Tallied n r) (elapsed : Duration) :
    (r.close elapsed).status = .pass ↔ ∀ s ∈ r.results, ∃ c, s = some c ∧ c.verdict = .pass := by
  have hstatus : (r.close elapsed).status = .pass ↔
      r.failed ≤ 0 ∧ r.total = r.results.length := by
    simp only [Run.close, Status.ofBool]
    split
    · rename_i hb
      simpa using hb
    · rename_i hb
      simpa using hb
  rw [hstatus, h.failed, h.total]
  have hfailed : ((r.results.countP slotFailed : Int) ≤ 0) ↔ r.results.countP slotFailed = 0 := by
    omega
  rw [hfailed, Int.ofNat_inj, List.countP_eq_zero, List.countP_eq_length]
  constructor
  · rintro ⟨hno, hall⟩ s hs
    obtain ⟨c, rfl⟩ := Option.isSome_iff_exists.mp (hall s hs)
    exact ⟨c, rfl, c.verdict.passed_iff.mp (by simpa [slotFailed] using hno _ hs)⟩
  · intro hall
    refine ⟨fun s hs => ?_, fun s hs => ?_⟩
    · obtain ⟨c, rfl, hc⟩ := hall s hs
      simp [slotFailed, c.verdict.passed_iff.mpr hc]
    · obtain ⟨c, rfl, _⟩ := hall s hs
      rfl

end Tallied

/-! ### The order of the calls -/

/-- The run without what closing it sets. -/
def unsettled (r : Run) : Run := { r with status := .fail, wallClock := Duration.zero }

theorem unsettled_fill (r : Run) (i : Nat) (c : CaseResult) :
    (r.fill i c).unsettled = r.unsettled.fill i c := rfl

/-- The results taken go to different slots that are empty before. -/
theorem taken_empty (r : Run) (es : List Entry) :
    ((r.taken es).map Prod.fst).Nodup ∧ ∀ p ∈ r.taken es, r.results[p.1]? = some none := by
  induction es generalizing r with
  | nil => exact ⟨List.nodup_nil, by simp [taken]⟩
  | cons e es ih =>
    obtain ⟨hnodup, hempty⟩ := ih (r.entered e).1
    rcases r.entered_cases e with ⟨elapsed, _, he, ht⟩ | ⟨i, c, _, _, hslot, he, ht⟩ |
      ⟨f, he, ht, _⟩
    · simp only [taken, ht, Option.toList_none, List.nil_append]
      rw [he] at hnodup hempty ⊢
      exact ⟨hnodup, hempty⟩
    · simp only [taken, ht, Option.toList_some, List.singleton_append, List.map_cons,
        List.nodup_cons, List.forall_mem_cons]
      rw [he] at hnodup hempty ⊢
      -- The slot that was just filled is not empty any more.
      have hne : ∀ p ∈ taken (r.fill i.toNat c) es, i.toNat ≠ p.1 := by
        intro p hp heq
        have hp := hempty p hp
        have hlt := (List.getElem?_eq_some_iff.mp hslot).1
        rw [results_fill, ← heq, List.getElem?_set_self hlt] at hp
        simp at hp
      refine ⟨⟨?_, hnodup⟩, hslot, fun p hp => ?_⟩
      · rintro hmem
        obtain ⟨p, hp, heq⟩ := List.mem_map.mp hmem
        exact hne p hp heq.symm
      · have hp' := hempty p hp
        rwa [results_fill, List.getElem?_set_ne (hne p hp)] at hp'
    · simp only [taken, ht, Option.toList_none, List.nil_append]
      rw [he] at hnodup hempty ⊢
      exact ⟨hnodup, hempty⟩

/-- But for what closing sets, a run is made by the results taken. -/
theorem enteredAll_unsettled (r : Run) (es : List Entry) :
    (r.enteredAll es).unsettled = fillAll (r.taken es) r.unsettled := by
  induction es generalizing r with
  | nil => rfl
  | cons e es ih =>
    show ((r.entered e).1.enteredAll es).unsettled = _
    rw [ih]
    rcases r.entered_cases e with ⟨elapsed, _, he, ht⟩ | ⟨i, c, _, _, _, he, ht⟩ | ⟨f, he, ht, _⟩
    · simp only [taken, ht, he, Option.toList_none, List.nil_append]
      rfl
    · simp only [taken, ht, he, Option.toList_some, List.singleton_append, unsettled_fill]
      rfl
    · simp only [taken, ht, he, Option.toList_none, List.nil_append]

/-- Runs that took the same results in any order differ at most in what closing sets. -/
theorem enteredAll_perm (r : Run) {es es' : List Entry} (h : (r.taken es).Perm (r.taken es')) :
    (r.enteredAll es).unsettled = (r.enteredAll es').unsettled := by
  rw [enteredAll_unsettled, enteredAll_unsettled]
  exact fillAll_perm h (r.taken_empty es).1 r.unsettled

/-- A run that is never closed keeps the status and the time it began with. -/
theorem enteredAll_adds (r : Run) {es : List Entry}
    (h : ∀ e ∈ es, ∃ given i c, e = Entry.add given i c) :
    (r.enteredAll es).status = r.status ∧ (r.enteredAll es).wallClock = r.wallClock := by
  induction es generalizing r with
  | nil => exact ⟨rfl, rfl⟩
  | cons e es ih =>
    obtain ⟨given, i, c, rfl⟩ := h e List.mem_cons_self
    have hkept : (r.entered (.add given i c)).1.status = r.status ∧
        (r.entered (.add given i c)).1.wallClock = r.wallClock := by
      rcases r.entered_cases (.add given i c) with ⟨_, heq, _⟩ | ⟨_, _, _, _, _, he, _⟩ | ⟨_, he, _⟩
      · simp at heq
      · rw [he]
        exact ⟨rfl, rfl⟩
      · rw [he]
        exact ⟨rfl, rfl⟩
    obtain ⟨hstatus, htime⟩ := ih (r.entered (.add given i c)).1
      fun e' he' => h e' (List.mem_cons_of_mem _ he')
    exact ⟨hstatus.trans hkept.1, htime.trans hkept.2⟩

theorem eq_of_unsettled {r r' : Run} (h : r.unsettled = r'.unsettled)
    (hstatus : r.status = r'.status) (htime : r.wallClock = r'.wallClock) : r = r' := by
  cases r
  cases r'
  simp_all [unsettled]

/-- **The totals of a run agree with its slots.** Begin with a run of `n` empty slots and make
    any list of calls on it. The run still has `n` slots, the totals count those that are
    filled, that passed and that failed, and its duration is the wrapping sum of theirs. A
    further call is refused exactly if it is unfit, and then changes nothing; any other
    result goes to its slot. When the run is closed, it passes exactly if every slot is filled
    with a result that passed. And only the results that were taken count: another list of
    calls that takes the same ones, in whatever order, leads to the same run once both are
    closed, or if neither of them has been. -/
theorem entries_tally (id : Text) (n : Nat) (parallel : Bool) (start : ZonedInstant)
    (es : List Entry) :
    let r₀ := Run.empty id n parallel start
    let r := r₀.enteredAll es
    Tallied n r ∧ r.passed + r.failed = r.total ∧ r.failed = r.failedCases.length ∧
    (∀ e, ((r.entered e).2.isSome = true ↔ r.Unfit e) ∧ (r.Unfit e → (r.entered e).1 = r)) ∧
    (∀ i c, ¬ r.Unfit (.add true i (some c)) →
      (r.entered (.add true i (some c))).1.results = r.results.set i.toNat (some c)) ∧
    (∀ elapsed, (r.entered (.close elapsed)).1.status = .pass ↔
      ∀ s ∈ r.results, ∃ c, s = some c ∧ c.verdict = .pass) ∧
    ∀ es', (r₀.taken es).Perm (r₀.taken es') →
      (∀ elapsed, (r.entered (.close elapsed)).1 =
        ((r₀.enteredAll es').entered (.close elapsed)).1) ∧
      ((∀ e ∈ es ++ es', ∃ given i c, e = Entry.add given i c) → r = r₀.enteredAll es') := by
  intro r₀ r
  have htallied : Tallied n r := (tallied_empty id n parallel start).enteredAll es
  refine ⟨htallied, htallied.passed_add_failed, htallied.failed_eq_length, fun e => ?_,
    fun i c hfit => ?_, htallied.status_close, fun es' htaken => ?_⟩
  · exact ⟨r.refused_iff_unfit e, fun h => entered_of_refused ((r.refused_iff_unfit e).mpr h)⟩
  · rcases r.entered_cases (.add true i (some c)) with ⟨_, heq, _⟩ | ⟨i', c', heq, _, _, he, _⟩ |
      ⟨_, _, _, hunfit⟩
    · simp at heq
    · obtain ⟨rfl, rfl⟩ : i = i' ∧ c = c' := by simpa using heq
      rw [he, results_fill]
    · exact absurd hunfit hfit
  · have hsame := r₀.enteredAll_perm htaken
    refine ⟨fun elapsed => ?_, fun hadds => ?_⟩
    · show r.unsettled.close elapsed = (r₀.enteredAll es').unsettled.close elapsed
      rw [hsame]
    · obtain ⟨hstatus, htime⟩ := r₀.enteredAll_adds fun e he => hadds e (List.mem_append_left es' he)
      obtain ⟨hstatus', htime'⟩ :=
        r₀.enteredAll_adds fun e he => hadds e (List.mem_append_right es he)
      exact eq_of_unsettled hsame (hstatus.trans hstatus'.symm) (htime.trans htime'.symm)

end Run

end Gauntlet
