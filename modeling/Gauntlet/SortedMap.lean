/-! # Maps with sorted keys

  A finite map as the list of its pairs in strictly increasing key order. The
  order is part of the type, so a map is determined by what it contains, and
  listing it needs no sorting.
-/

namespace Gauntlet

/-- A finite map with its keys in strictly increasing order. -/
structure SortedMap (κ β : Type) [LT κ] where
  /-- The pairs, by increasing key. -/
  pairs : List (κ × β)
  sorted : pairs.Pairwise fun a b => a.1 < b.1

namespace SortedMap

variable {κ β : Type} [LT κ]

/-- The map without pairs. -/
def empty : SortedMap κ β := ⟨[], List.Pairwise.nil⟩

instance : Inhabited (SortedMap κ β) := ⟨empty⟩

/-- The value at a key. -/
def get? [DecidableEq κ] (m : SortedMap κ β) (k : κ) : Option β :=
  (m.pairs.find? fun p => p.1 = k).map Prod.snd

/-- The list of pairs with `k` set to `v`. -/
def insertPair [DecidableLT κ] (k : κ) (v : β) : List (κ × β) → List (κ × β)
  | [] => [(k, v)]
  | p :: ps =>
    if p.1 < k then p :: insertPair k v ps
    else if k < p.1 then (k, v) :: p :: ps
    else (p.1, v) :: ps

/-- Every key after an insertion was there before or is the inserted one. -/
theorem mem_keys_insertPair [DecidableLT κ] {k : κ} {v : β} {ps : List (κ × β)} {p : κ × β}
    (h : p ∈ insertPair k v ps) : p.1 = k ∨ ∃ q ∈ ps, q.1 = p.1 := by
  induction ps with
  | nil =>
    simp only [insertPair, List.mem_singleton] at h
    exact Or.inl (by rw [h])
  | cons q qs ih =>
    simp only [insertPair] at h
    split at h
    · rcases List.mem_cons.mp h with h | h
      · exact Or.inr ⟨q, List.mem_cons_self, by rw [h]⟩
      · rcases ih h with h | ⟨r, hr, e⟩
        · exact Or.inl h
        · exact Or.inr ⟨r, List.mem_cons_of_mem _ hr, e⟩
    · split at h
      · rcases List.mem_cons.mp h with h | h
        · exact Or.inl (by rw [h])
        · exact Or.inr ⟨p, h, rfl⟩
      · rcases List.mem_cons.mp h with h | h
        · exact Or.inr ⟨q, List.mem_cons_self, by rw [h]⟩
        · exact Or.inr ⟨p, List.mem_cons_of_mem _ h, rfl⟩

/-- Insertion keeps the keys in order. -/
theorem sorted_insertPair [DecidableLT κ] [Trans (α := κ) (· < ·) (· < ·) (· < ·)]
    (k : κ) (v : β) {ps : List (κ × β)} (h : ps.Pairwise fun a b => a.1 < b.1) :
    (insertPair k v ps).Pairwise fun a b => a.1 < b.1 := by
  induction ps with
  | nil => exact List.pairwise_singleton _ _
  | cons q qs ih =>
    have hq : ∀ r ∈ qs, q.1 < r.1 := (List.pairwise_cons.mp h).1
    have hqs := (List.pairwise_cons.mp h).2
    simp only [insertPair]
    split
    · rename_i hlt
      refine List.pairwise_cons.mpr ⟨fun r hr => ?_, ih hqs⟩
      rcases mem_keys_insertPair hr with e | ⟨s, hs, e⟩
      · rw [e]; exact hlt
      · rw [← e]; exact hq s hs
    · split
      · rename_i hlt
        refine List.pairwise_cons.mpr ⟨fun r hr => ?_, h⟩
        rcases List.mem_cons.mp hr with e | hr
        · rw [e]; exact hlt
        · exact Trans.trans (r := (· < ·)) (s := (· < ·)) (t := (· < ·)) hlt (hq r hr)
      · exact List.pairwise_cons.mpr ⟨hq, hqs⟩

/-- The map with `k` set to `v`. -/
def insert [DecidableLT κ] [Trans (α := κ) (· < ·) (· < ·) (· < ·)]
    (m : SortedMap κ β) (k : κ) (v : β) : SortedMap κ β :=
  ⟨insertPair k v m.pairs, sorted_insertPair k v m.sorted⟩

/-- The pairs whose key satisfies `p`. -/
def filterKeys (m : SortedMap κ β) (p : κ → Bool) : SortedMap κ β :=
  ⟨m.pairs.filter fun q => p q.1, m.sorted.filter _⟩

/-- The map without the key `k`. -/
def erase [DecidableEq κ] (m : SortedMap κ β) (k : κ) : SortedMap κ β :=
  m.filterKeys fun q => q ≠ k

/-- The map with the value at `k` changed, if there is one. -/
def modify [DecidableEq κ] (m : SortedMap κ β) (k : κ) (f : β → β) : SortedMap κ β where
  pairs := m.pairs.map fun p => if p.1 = k then (p.1, f p.2) else p
  sorted := by
    refine List.pairwise_map.mpr (m.sorted.imp ?_)
    intro a b h
    by_cases ha : a.1 = k <;> by_cases hb : b.1 = k <;> simpa [ha, hb] using h

end SortedMap

end Gauntlet
