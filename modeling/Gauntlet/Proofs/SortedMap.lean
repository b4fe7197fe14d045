import Gauntlet.SortedMap
import Mathlib.Algebra.Ring.Nat
import Mathlib.Data.List.Sort

/-! # What a sorted map contains

  Every operation on a sorted map is described by what looking up a key gives
  afterwards. Since the pairs are in strictly increasing order, a map is determined
  by its look-ups (`ext_get`).
-/

namespace Gauntlet.SortedMap

variable {κ β : Type} [LT κ] [DecidableEq κ]

/-! ### Look-ups after an operation -/

theorem get?_filterKeys (m : SortedMap κ β) (p : κ → Bool) (k : κ) :
    (m.filterKeys p).get? k = if p k then m.get? k else none := by
  obtain ⟨ps, _⟩ := m
  simp only [get?, filterKeys]
  clear * -
  induction ps with
  | nil => simp
  | cons q qs ih =>
    by_cases hq : q.1 = k
    · cases hp : p k with
      | true => simp [hq, hp]
      | false =>
        rw [hp] at ih
        simpa [hq, hp] using ih
    · cases hp : p q.1 <;> simp_all

theorem get?_erase (m : SortedMap κ β) (k k' : κ) :
    (m.erase k).get? k' = if k' = k then none else m.get? k' := by
  rw [erase, get?_filterKeys]
  by_cases h : k' = k <;> simp [h]

theorem get?_modify (m : SortedMap κ β) (k k' : κ) (f : β → β) :
    (m.modify k f).get? k' = if k' = k then (m.get? k').map f else m.get? k' := by
  obtain ⟨ps, _⟩ := m
  simp only [get?, modify]
  clear * -
  induction ps with
  | nil => simp
  | cons q qs ih =>
    simp only [List.map_cons]
    by_cases hq : q.1 = k
    · by_cases hk : k' = k
      · subst hk
        simp [hq]
      · have hne : q.1 ≠ k' := fun h => hk (h.symm.trans hq)
        simp_all
    · by_cases hk : q.1 = k'
      · simp_all
      · simp_all

theorem get?_insert [DecidableLT κ] [Trans (α := κ) (· < ·) (· < ·) (· < ·)]
    [Std.Irrefl (α := κ) (· < ·)] [Std.Trichotomous (α := κ) (· < ·)]
    (m : SortedMap κ β) (k k' : κ) (v : β) :
    (m.insert k v).get? k' = if k' = k then some v else m.get? k' := by
  obtain ⟨ps, _⟩ := m
  simp only [get?, insert]
  clear * -
  induction ps with
  | nil => by_cases hk : k' = k <;> simp [insertPair, hk, eq_comm]
  | cons q qs ih =>
    simp only [insertPair]
    split
    · -- The new pair goes further back, so its key is not the first one.
      rename_i hlt
      have hne : q.1 ≠ k := by
        intro h
        rw [h] at hlt
        exact Std.Irrefl.irrefl (r := (· < ·)) k hlt
      by_cases hk : q.1 = k'
      · subst hk
        simp [hne]
      · simp_all
    · split
      · by_cases hk : k' = k
        · simp [hk]
        · have hne : ¬ k = k' := fun h => hk h.symm
          simp [hk, hne]
      · rename_i hnlt hngt
        have heq : q.1 = k := Std.Trichotomous.trichotomous (r := (· < ·)) _ _ hnlt hngt
        by_cases hk : k' = k
        · simp [hk, heq]
        · have hne : ¬ k = k' := fun h => hk h.symm
          simp [hk, heq, hne]

/-! ### Sums -/

/-- A new value takes the place of the old one in the sum of all values. -/
theorem sum_insert [DecidableLT κ] [Trans (α := κ) (· < ·) (· < ·) (· < ·)]
    [Std.Irrefl (α := κ) (· < ·)] [Std.Trichotomous (α := κ) (· < ·)]
    (m : SortedMap κ Nat) (k : κ) (v : Nat) :
    ((m.insert k v).pairs.map Prod.snd).sum + (m.get? k).getD 0 =
      (m.pairs.map Prod.snd).sum + v := by
  obtain ⟨ps, hsorted⟩ := m
  simp only [get?, insert]
  induction ps with
  | nil => simp [insertPair]
  | cons q qs ih =>
    obtain ⟨hfirst, hrest⟩ := List.pairwise_cons.mp hsorted
    simp only [insertPair]
    split
    · rename_i hlt
      have hne : q.1 ≠ k := by
        intro h
        rw [h] at hlt
        exact Std.Irrefl.irrefl (r := (· < ·)) k hlt
      have := ih hrest
      simp only [List.map_cons, List.sum_cons, List.find?_cons, hne, decide_false]
      omega
    · split
      · -- All keys are larger, so there is no old value.
        rename_i hgt
        have hnone : (q :: qs).find? (fun p => p.1 = k) = none := by
          rw [List.find?_eq_none]
          intro p hp heq
          have heq : p.1 = k := by simpa using heq
          have hlt : k < p.1 := by
            rcases List.mem_cons.mp hp with rfl | hp
            · exact hgt
            · exact Trans.trans (r := (· < ·)) (s := (· < ·)) (t := (· < ·)) hgt (hfirst p hp)
          rw [heq] at hlt
          exact Std.Irrefl.irrefl (r := (· < ·)) k hlt
        rw [hnone]
        simp only [List.map_cons, List.sum_cons, Option.map_none, Option.getD_none]
        omega
      · rename_i hnlt hngt
        have heq : q.1 = k := Std.Trichotomous.trichotomous (r := (· < ·)) _ _ hnlt hngt
        simp only [List.map_cons, List.sum_cons, List.find?_cons, heq, decide_true,
          Option.map_some, Option.getD_some]
        omega

/-! ### Extensionality -/

theorem mem_pairs_iff [Std.Irrefl (α := κ) (· < ·)] (m : SortedMap κ β) (k : κ) (v : β) :
    (k, v) ∈ m.pairs ↔ m.get? k = some v := by
  obtain ⟨ps, hsorted⟩ := m
  simp only [get?]
  induction ps with
  | nil => simp
  | cons q qs ih =>
    obtain ⟨hfirst, hrest⟩ := List.pairwise_cons.mp hsorted
    by_cases hq : q.1 = k
    · -- Later keys are larger, so the first pair is the only one with this key.
      have hnot : (k, v) ∉ qs := by
        intro hmem
        have := hfirst _ hmem
        rw [hq] at this
        exact Std.Irrefl.irrefl (r := (· < ·)) k this
      have : (k, v) = q ↔ q.2 = v := by
        constructor
        · intro h
          rw [← h]
        · intro h
          rw [← h, ← hq]
      simp [hnot, hq, this]
    · have : (k, v) ≠ q := fun h => hq (by rw [← h])
      simp [this, hq, ih hrest]

theorem ext_get [Std.Irrefl (α := κ) (· < ·)] [Std.Asymm (α := κ) (· < ·)]
    {m m' : SortedMap κ β} (h : ∀ k, m.get? k = m'.get? k) : m = m' := by
  have hmem : ∀ p, p ∈ m.pairs ↔ p ∈ m'.pairs := by
    rintro ⟨k, v⟩
    rw [mem_pairs_iff, mem_pairs_iff, h]
  have hpairs : m.pairs = m'.pairs := by
    have : Std.Irrefl (fun a b : κ × β => a.1 < b.1) := ⟨fun a => Std.Irrefl.irrefl (r := (· < ·)) a.1⟩
    have : Std.Antisymm (fun a b : κ × β => a.1 < b.1) :=
      ⟨fun a b hab hba => absurd hba (Std.Asymm.asymm _ _ hab)⟩
    exact m.sorted.eq_of_mem_iff m'.sorted hmem
  obtain ⟨ps, _⟩ := m
  obtain ⟨ps', _⟩ := m'
  subst hpairs
  rfl

end Gauntlet.SortedMap
