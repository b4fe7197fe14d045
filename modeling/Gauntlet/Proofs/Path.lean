import Gauntlet.Path

/-! # The ends of path names

  Cleaning a name looks at its components, so what stands at the end of the last
  component stays there: a suffix without slashes, such as `.s`, can be put on a name
  before or after it is joined and cleaned (`join_append`). Names that differ in such a
  suffix only have the same components but for the last one (`pieces_append`).
-/

namespace Gauntlet

namespace Text

theorem splitOn_of_not_mem {b : UInt8} {u : Text} (hu : b ∉ u) : splitOn b u = [u] := by
  induction u with
  | nil => rfl
  | cons a u ih =>
    have ha : a ≠ b := fun h => hu (by simp [h])
    have hrest : b ∉ u := fun h => hu (List.mem_cons_of_mem _ h)
    simp [splitOn, ha, ih hrest]

theorem splitOn_append (b : UInt8) (t : Text) :
    ∃ ps last, ∀ u, b ∉ u → splitOn b (t ++ u) = ps ++ [last ++ u] := by
  induction t with
  | nil => exact ⟨[], [], fun u hu => splitOn_of_not_mem hu⟩
  | cons a t ih =>
    obtain ⟨ps, last, h⟩ := ih
    by_cases ha : a = b
    · refine ⟨[] :: ps, last, fun u hu => ?_⟩
      simp [splitOn, ha, h u hu]
    · -- The first byte joins the first piece, which is the last one if there is no other.
      cases ps with
      | nil =>
        refine ⟨[], a :: last, fun u hu => ?_⟩
        simp [splitOn, ha, h u hu]
      | cons p ps =>
        refine ⟨(a :: p) :: ps, last, fun u hu => ?_⟩
        simp [splitOn, ha, h u hu]

theorem intercalate_concat (sep : Text) (ps : List Text) (a u : Text) :
    intercalate sep (ps ++ [a ++ u]) = intercalate sep (ps ++ [a]) ++ u := by
  induction ps with
  | nil => rfl
  | cons p ps ih =>
    cases ps with
    | nil => simp [intercalate]
    | cons q ps =>
      simp only [List.cons_append, intercalate] at ih ⊢
      rw [ih]
      simp only [List.append_assoc]

end Text

namespace Path

/-- The byte of `.`. -/
def dot : UInt8 := 46

/-- A text that can end a component without making it a special one. -/
structure Suffix (u : Text) : Prop where
  noSlash : slash ∉ u
  named : ∃ x ∈ u, x ≠ dot

namespace Suffix

variable {u : Text}

/-- A component with a suffix is not one that cleaning takes away. -/
theorem ordinary (hu : Suffix u) (c : Text) : c ++ u ≠ [] ∧ c ++ u ≠ here ∧ c ++ u ≠ up := by
  obtain ⟨x, hx, hdot⟩ := hu.named
  have hmem : x ∈ c ++ u := List.mem_append_right c hx
  refine ⟨?_, ?_, ?_⟩ <;> intro h <;> rw [h] at hmem
  · simp at hmem
  · exact hdot (by simpa [here, dot] using hmem)
  · exact hdot (by simpa [up, dot] using hmem)

theorem getLast?_ne_slash (hu : Suffix u) (t : Text) : (t ++ u).getLast? ≠ some slash := by
  obtain ⟨x, hx, _⟩ := hu.named
  have hne : u ≠ [] := List.ne_nil_of_mem hx
  intro h
  rw [List.getLast?_append, List.getLast?_eq_some_getLast hne] at h
  have hlast : u.getLast hne = slash := by simpa using h
  exact hu.noSlash (hlast ▸ List.getLast_mem hne)

theorem isAbsolute_append (hu : Suffix u) (t : Text) : isAbsolute (t ++ u) = isAbsolute t := by
  cases t with
  | cons a t => rfl
  | nil =>
    cases u with
    | nil => rfl
    | cons a u =>
      have ha : a ≠ slash := fun h => hu.noSlash (by simp [h])
      simp [isAbsolute, ha]

end Suffix

theorem pieces_append (t : Text) :
    ∃ ps last, ∀ u, Suffix u → (pieces (t ++ u)).filter (· ≠ []) = ps ++ [last ++ u] := by
  obtain ⟨ps, last, h⟩ := Text.splitOn_append slash t
  refine ⟨ps.filter (· ≠ []), last, fun u hu => ?_⟩
  have hne : last ++ u ≠ [] := (hu.ordinary last).1
  simp only [pieces, h u hu.noSlash, List.filter_append]
  simp [hne]

theorem reduce_concat (rooted : Bool) {c : Text} (hc : c ≠ [] ∧ c ≠ here ∧ c ≠ up)
    (kept cs : List Text) : reduce rooted kept (cs ++ [c]) = reduce rooted kept cs ++ [c] := by
  fun_induction reduce rooted kept cs with
  | case1 kept => simp [reduce, hc]
  | case2 kept c' cs h ih => simp [reduce, h, ih]
  | case3 cs h ih => simp_all [reduce]
  | case4 cs ks h ih => simp_all [reduce]
  | case5 cs k ks h ih => simp_all [reduce]
  | case6 kept c' cs h h' ih => simp_all [reduce]

theorem clean_append (t : Text) : ∃ front, ∀ u, Suffix u → clean (t ++ u) = front ++ u := by
  obtain ⟨ps, last, h⟩ := Text.splitOn_append slash t
  have hcomponents : ∀ u, Suffix u →
      components (t ++ u) = reduce (isAbsolute t) [] ps ++ [last ++ u] := by
    intro u hu
    rw [components, pieces, h u hu.noSlash, hu.isAbsolute_append,
      reduce_concat _ (hu.ordinary last)]
  refine ⟨(if isAbsolute t then [slash] else []) ++
    Text.intercalate [slash] (reduce (isAbsolute t) [] ps ++ [last]), fun u hu => ?_⟩
  rw [clean, hcomponents u hu, hu.isAbsolute_append]
  cases isAbsolute t <;> simp [absolute, relative, Text.intercalate_concat]

theorem join_append (dir name : Text) :
    ∃ front, ∀ u, Suffix u → join [dir, name ++ u] = front ++ u := by
  by_cases hdir : dir = []
  · obtain ⟨front, h⟩ := clean_append name
    refine ⟨front, fun u hu => ?_⟩
    have hne := (hu.ordinary name).1
    rw [← h u hu]
    simp [join, hdir, hne, Text.intercalate]
  · obtain ⟨front, h⟩ := clean_append (dir ++ [slash] ++ name)
    refine ⟨front, fun u hu => ?_⟩
    rw [← h u hu]
    simp [join, hdir, Text.intercalate]

end Path

end Gauntlet
