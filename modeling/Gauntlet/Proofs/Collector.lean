import Gauntlet.Run.Conduct
import Mathlib.Data.List.Nodup

/-! # Recording results

  What a run holds after results have been recorded in it, in whatever order they came.

  - A slot takes one result; recording succeeds as long as every index is that of an
    empty slot and comes up once.
  - `fill_comm`: results at different indices can be recorded in either order. So the
    order of a whole list does not matter, neither for the slots nor for the totals, and
    not for the sum of the durations, which wraps around.
-/

namespace Gauntlet

namespace Duration

/-- Wrapping sums do not depend on the order. -/
theorem add_right_comm (a b c : Duration) : a + b + c = a + c + b := by
  show Duration.mk (a.nanos + b.nanos + c.nanos) = Duration.mk (a.nanos + c.nanos + b.nanos)
  rw [Int64.add_assoc, Int64.add_comm b.nanos, ← Int64.add_assoc]

end Duration

namespace Run

/-! ### One result -/

@[simp] theorem results_fill (r : Run) (i : Nat) (c : CaseResult) :
    (r.fill i c).results = r.results.set i (some c) := rfl

theorem fill_comm (r : Run) {i j : Nat} (hij : i ≠ j) (a b : CaseResult) :
    (r.fill i a).fill j b = (r.fill j b).fill i a := by
  have hresults := List.set_comm (some a) (some b) (l := r.results) hij
  have hduration := Duration.add_right_comm r.duration a.duration b.duration
  cases ha : a.verdict.passed <;> cases hb : b.verdict.passed <;>
    simp [fill, ha, hb, hresults, hduration]

/-- A result is recorded in an empty slot. -/
theorem record_empty {r : Run} {i : Nat} (h : r.results[i]? = some none) (c : CaseResult) :
    record (some r) i (some c) = .ok (r.fill i c) := by
  have hi : ¬ (i : Int) < 0 := by omega
  simp [record, slot?, hi, h]

/-! ### Many results -/

/-- The run with results put at their indices, one after the other. -/
def fillAll (l : List (Nat × CaseResult)) (r : Run) : Run :=
  l.foldl (fun r p => r.fill p.1 p.2) r

theorem fillAll_perm {l l' : List (Nat × CaseResult)} (h : l.Perm l')
    (hn : (l.map Prod.fst).Nodup) (r : Run) : fillAll l r = fillAll l' r := by
  refine h.foldl_eq' ?_ r
  intro p hp q hq r
  by_cases hpq : p = q
  · rw [hpq]
  · have hne : p.1 ≠ q.1 := by
      intro he
      exact hpq (List.inj_on_of_nodup_map hn hp hq he)
    exact fill_comm r hne p.2 q.2

theorem getElem_fillAll_of_not_mem {l : List (Nat × CaseResult)} {i : Nat}
    (h : i ∉ l.map Prod.fst) (r : Run) : (fillAll l r).results[i]? = r.results[i]? := by
  induction l generalizing r with
  | nil => rfl
  | cons p rest ih =>
    rw [List.map_cons, List.mem_cons, not_or] at h
    show (fillAll rest (r.fill p.1 p.2)).results[i]? = _
    rw [ih h.2, results_fill, List.getElem?_set_ne (Ne.symm h.1)]

theorem getElem_fillAll {l : List (Nat × CaseResult)} (hn : (l.map Prod.fst).Nodup) {r : Run}
    (hl : ∀ p ∈ l, p.1 < r.results.length) {p : Nat × CaseResult} (hp : p ∈ l) :
    (fillAll l r).results[p.1]? = some (some p.2) := by
  induction l generalizing r with
  | nil => exact absurd hp (by simp)
  | cons q rest ih =>
    rw [List.map_cons, List.nodup_cons] at hn
    show (fillAll rest (r.fill q.1 q.2)).results[p.1]? = _
    rcases List.mem_cons.mp hp with rfl | hp
    · rw [getElem_fillAll_of_not_mem hn.1, results_fill,
        List.getElem?_set_self (hl p List.mem_cons_self)]
    · refine ih hn.2 ?_ hp
      intro x hx
      rw [results_fill, List.length_set]
      exact hl x (List.mem_cons_of_mem q hx)

@[simp] theorem length_fillAll (l : List (Nat × CaseResult)) (r : Run) :
    (fillAll l r).results.length = r.results.length := by
  induction l generalizing r with
  | nil => rfl
  | cons p rest ih =>
    show (fillAll rest (r.fill p.1 p.2)).results.length = _
    rw [ih, results_fill, List.length_set]

/-- Results for different empty slots are all recorded. -/
theorem recordAll_eq_fillAll {l : List (Nat × CaseResult)} (hn : (l.map Prod.fst).Nodup)
    {r : Run} (h : ∀ p ∈ l, r.results[p.1]? = some none) :
    recordAll (l.map fun p => (p.1, some p.2)) r = .ok (fillAll l r) := by
  induction l generalizing r with
  | nil => rfl
  | cons p rest ih =>
    rw [List.map_cons, List.nodup_cons] at hn
    rw [List.map_cons, recordAll, record_empty (h p List.mem_cons_self)]
    refine ih hn.2 ?_
    intro q hq
    have hne : p.1 ≠ q.1 := by
      intro he
      exact hn.1 (he ▸ List.mem_map_of_mem hq)
    rw [results_fill, List.getElem?_set_ne hne]
    exact h q (List.mem_cons_of_mem p hq)

theorem getElem_empty (id : Text) {n i : Nat} (hi : i < n) (parallel : Bool)
    (start : ZonedInstant) : (Run.empty id n parallel start).results[i]? = some none := by
  simp [Run.empty, hi]

end Run

end Gauntlet
