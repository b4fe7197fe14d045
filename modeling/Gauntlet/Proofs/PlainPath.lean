import Gauntlet.Proofs.Path
import Mathlib.Data.List.Induction

/-! # Plain names

  A component is ordinary if it stands for itself: it is not empty, has no slash and is
  neither `.` nor `..`. A plain list of components and the absolute name that it makes
  determine each other (`components_absolute`), and every absolute name is cleaned to one of
  this kind (`clean_eq_absolute`). On such names the operations on text are operations on
  lists: `parent` takes away the last component (`parent_absolute`), and a name that starts
  with another one and a slash is below it (`prefix_of_startsWith`).
-/

namespace Gauntlet

namespace Text

theorem splitOn_append_sep (b : UInt8) (u v : Text) :
    splitOn b (u ++ b :: v) = splitOn b u ++ splitOn b v := by
  induction u with
  | nil => simp [splitOn]
  | cons a u ih =>
    by_cases ha : a = b
    · simp [splitOn, ha, ih]
    · have hne : splitOn b u ≠ [] := by
        intro h
        obtain ⟨ps, last, hsplit⟩ := splitOn_append b u
        have := hsplit [] (by simp)
        simp [h] at this
      obtain ⟨p, ps, hp⟩ := List.exists_cons_of_ne_nil hne
      simp [splitOn, ha, ih, hp]

theorem not_mem_of_mem_splitOn {b : UInt8} {t p : Text} (h : p ∈ splitOn b t) : b ∉ p := by
  induction t generalizing p with
  | nil =>
    obtain rfl : p = [] := by simpa [splitOn] using h
    simp
  | cons a t ih =>
    rw [splitOn] at h
    split at h
    · rcases List.mem_cons.mp h with rfl | h
      · simp
      · exact ih h
    · rename_i ha
      split at h
      · obtain rfl : p = [a] := by simpa using h
        simpa using Ne.symm ha
      · rename_i q qs hqs
        rw [hqs] at ih
        rcases List.mem_cons.mp h with rfl | h
        · simpa [Ne.symm ha] using ih List.mem_cons_self
        · exact ih (List.mem_cons_of_mem q h)

end Text

namespace Path

/-- A component that stands for itself. -/
structure Ordinary (c : Text) : Prop where
  ne_nil : c ≠ []
  noSlash : slash ∉ c
  ne_here : c ≠ here
  ne_up : c ≠ up

/-- Components that all stand for themselves. -/
def Plain (cs : List Text) : Prop := ∀ c ∈ cs, Ordinary c

namespace Plain

variable {cs cs' : List Text} {c : Text}

theorem nil : Plain [] := by simp [Plain]

theorem append (h : Plain cs) (h' : Plain cs') : Plain (cs ++ cs') := by
  intro c hc
  rcases List.mem_append.mp hc with hc | hc
  · exact h c hc
  · exact h' c hc

theorem concat (h : Plain cs) (hc : Ordinary c) : Plain (cs ++ [c]) :=
  h.append (by simpa [Plain] using hc)

theorem sublist (h : Plain cs) (hs : List.Sublist cs' cs) : Plain cs' := fun c hc => h c (hs.subset hc)

theorem dropLast (h : Plain cs) : Plain cs.dropLast := h.sublist (List.dropLast_sublist cs)

end Plain

/-! ### Names and components -/

theorem absolute_concat (cs : List Text) (c : Text) :
    absolute (cs ++ [c]) = (if cs = [] then [] else absolute cs) ++ slash :: c := by
  by_cases hcs : cs = []
  · simp [hcs, absolute, Text.intercalate]
  · have hjoined : Text.intercalate [slash] (cs ++ [c]) =
        Text.intercalate [slash] cs ++ slash :: c := by
      induction cs with
      | nil => simp at hcs
      | cons a cs ih =>
        cases cs with
        | nil => simp [Text.intercalate]
        | cons b cs =>
          simp only [List.cons_append, Text.intercalate] at ih ⊢
          simp [ih]
    simp [hcs, absolute, hjoined]

theorem absolute_prefix (cs more : List Text) : absolute cs <+: absolute (cs ++ more) := by
  induction more using List.reverseRecOn with
  | nil => simp
  | append_singleton more c ih =>
    rw [← List.append_assoc, absolute_concat]
    split
    · rename_i hnil
      obtain rfl : cs = [] := (List.append_eq_nil_iff.mp hnil).1
      exact List.cons_prefix_cons.mpr ⟨rfl, List.nil_prefix⟩
    · exact ih.trans (List.prefix_append _ _)

theorem relative_concat (cs : List Text) (c : Text) :
    ∃ front, relative (cs ++ [c]) = front ++ c ∧ (front = [] ∨ ∃ t, front = t ++ [slash]) := by
  have hne : cs ++ [c] ≠ [] := by simp
  have habsolute := absolute_concat cs c
  rw [relative, if_neg hne]
  by_cases hcs : cs = []
  · exact ⟨[], by simp [hcs, Text.intercalate], Or.inl rfl⟩
  · rw [if_neg hcs, absolute, absolute, List.cons_append, List.cons.injEq] at habsolute
    refine ⟨Text.intercalate [slash] cs ++ [slash], ?_, Or.inr ⟨_, rfl⟩⟩
    rw [habsolute.2]
    simp

/-- What is between the slashes of a plain name. -/
theorem filter_pieces_absolute {cs : List Text} (h : Plain cs) :
    (pieces (absolute cs)).filter (· ≠ []) = cs := by
  induction cs using List.reverseRecOn with
  | nil => rfl
  | append_singleton cs c ih =>
    have hc := h c (by simp)
    have hcs : Plain cs := h.sublist (List.sublist_append_left cs [c])
    have hfront : (pieces (if cs = [] then [] else absolute cs)).filter (· ≠ []) = cs := by
      split
      · rename_i hnil
        rw [hnil]
        rfl
      · exact ih hcs
    rw [absolute_concat, pieces, Text.splitOn_append_sep, List.filter_append]
    rw [← pieces, hfront, Text.splitOn_of_not_mem hc.noSlash]
    simp [hc.ne_nil]

theorem reduce_plain (rooted : Bool) (kept : List Text) {cs : List Text} (h : Plain cs) :
    reduce rooted kept cs = kept.reverse ++ cs := by
  induction cs using List.reverseRecOn with
  | nil => simp [reduce]
  | append_singleton cs c ih =>
    have hc := h c (by simp)
    rw [reduce_concat rooted ⟨hc.ne_nil, hc.ne_here, hc.ne_up⟩ kept cs,
      ih (h.sublist (List.sublist_append_left cs [c])), List.append_assoc]

theorem reduce_filter (rooted : Bool) (kept cs : List Text) :
    reduce rooted kept (cs.filter (· ≠ [])) = reduce rooted kept cs := by
  induction cs generalizing kept with
  | nil => rfl
  | cons c cs ih =>
    by_cases hc : c = []
    · rw [List.filter_cons_of_neg (by simp [hc]), ih]
      simp [reduce, hc]
    · rw [List.filter_cons_of_pos (by simp [hc])]
      simp only [reduce, ih]

/-- From the root directory no component leads out of it, so what is kept is plain. -/
theorem plain_reduce {kept cs : List Text} (hkept : Plain kept) (hcs : ∀ c ∈ cs, slash ∉ c) :
    Plain (reduce true kept cs) := by
  fun_induction reduce true kept cs with
  | case1 kept => exact fun c hc => hkept c (List.mem_reverse.mp hc)
  | case2 kept c cs h ih => exact ih hkept fun c' hc' => hcs c' (List.mem_cons_of_mem c hc')
  | case3 cs h ih => exact ih Plain.nil fun c' hc' => hcs c' (List.mem_cons_of_mem _ hc')
  | case4 cs ks h ih => exact absurd rfl (hkept up List.mem_cons_self).ne_up
  | case5 cs k ks h hk ih =>
    exact ih (hkept.sublist (List.sublist_cons_self k ks))
      fun c' hc' => hcs c' (List.mem_cons_of_mem _ hc')
  | case6 kept c cs h h' ih =>
    refine ih ?_ fun c' hc' => hcs c' (List.mem_cons_of_mem c hc')
    intro c' hc'
    rcases List.mem_cons.mp hc' with rfl | hc'
    · exact ⟨fun hnil => h (Or.inl hnil), hcs _ List.mem_cons_self, fun hhere => h (Or.inr hhere), h'⟩
    · exact hkept c' hc'

theorem isAbsolute_absolute (cs : List Text) : isAbsolute (absolute cs) = true := rfl

theorem components_absolute {cs : List Text} (h : Plain cs) : components (absolute cs) = cs := by
  rw [components, ← reduce_filter, filter_pieces_absolute h, reduce_plain _ _ h]
  rfl

theorem absolute_inj {cs cs' : List Text} (h : Plain cs) (h' : Plain cs')
    (heq : absolute cs = absolute cs') : cs = cs' := by
  rw [← components_absolute h, heq, components_absolute h']

theorem plain_components {p : Text} (h : isAbsolute p = true) : Plain (components p) := by
  rw [components, h]
  exact plain_reduce Plain.nil fun c hc => Text.not_mem_of_mem_splitOn hc

theorem clean_eq_absolute {p : Text} (h : isAbsolute p = true) :
    clean p = absolute (components p) := by
  rw [clean, if_pos h]

/-- A name below an absolute one is cleaned to a plain name. -/
theorem join_absolute (cs : List Text) (name : Text) :
    ∃ cs', Plain cs' ∧ join [absolute cs, name] = absolute cs' := by
  refine ⟨components (absolute cs ++ slash :: name), plain_components rfl, ?_⟩
  rw [← clean_eq_absolute rfl]
  simp [join, absolute, Text.intercalate]

/-! ### Operations on plain names -/

theorem upToSlash_append {c : Text} (hc : slash ∉ c) (t : Text) :
    ((t ++ slash :: c).reverse.dropWhile (· ≠ slash)).reverse = t ++ [slash] := by
  have hrev : ∀ b ∈ c.reverse, decide (b ≠ slash) = true := by
    intro b hb
    have : b ≠ slash := fun h => hc (h ▸ List.mem_reverse.mp hb)
    simpa using this
  rw [List.reverse_append, List.reverse_cons, List.append_assoc,
    List.dropWhile_append_of_pos hrev]
  simp

theorem components_slash (t : Text) (ht : t ≠ []) : components (t ++ [slash]) = components t := by
  have hroot : isAbsolute (t ++ [slash]) = isAbsolute t := by
    obtain ⟨a, u, rfl⟩ := List.exists_cons_of_ne_nil ht
    rfl
  rw [components, components, hroot, ← reduce_filter, ← reduce_filter _ _ (pieces t), pieces,
    Text.splitOn_append_sep, List.filter_append]
  simp [pieces, Text.splitOn]

theorem parent_absolute {cs : List Text} (h : Plain cs) :
    parent (absolute cs) = absolute cs.dropLast := by
  induction cs using List.reverseRecOn with
  | nil => rfl
  | append_singleton cs c _ =>
    have hc := h c (by simp)
    have hcs : Plain cs := h.sublist (List.sublist_append_left cs [c])
    rw [parent, absolute_concat, upToSlash_append hc.noSlash, List.dropLast_concat]
    split
    · rename_i hnil
      rw [hnil]
      rfl
    · have habs : isAbsolute (absolute cs ++ [slash]) = true := rfl
      rw [clean_eq_absolute habs, components_slash _ (by simp [absolute]), components_absolute hcs]

theorem afterSlash_append {c : Text} (hc : slash ∉ c) (t : Text) :
    ((t ++ slash :: c).reverse.takeWhile (· ≠ slash)).reverse = c := by
  have hrev : ∀ b ∈ c.reverse, decide (b ≠ slash) = true := by
    intro b hb
    have : b ≠ slash := fun h => hc (h ▸ List.mem_reverse.mp hb)
    simpa using this
  rw [List.reverse_append, List.reverse_cons, List.append_assoc,
    List.takeWhile_append_of_pos hrev]
  simp

theorem Ordinary.exists_last {c : Text} (hc : Ordinary c) :
    ∃ front b, c = front ++ [b] ∧ b ≠ slash := by
  refine ⟨c.dropLast, c.getLast hc.ne_nil, (List.dropLast_concat_getLast hc.ne_nil).symm, ?_⟩
  exact fun h => hc.noSlash (h ▸ List.getLast_mem hc.ne_nil)

theorem withoutTrailing_append {c : Text} (hc : Ordinary c) (t : Text) :
    withoutTrailing (t ++ slash :: c) = t ++ slash :: c := by
  obtain ⟨front, b, rfl, hb⟩ := hc.exists_last
  simp [withoutTrailing, hb]

theorem ne_nil_of_mem_reduce (rooted : Bool) {kept cs : List Text}
    (hkept : ∀ c ∈ kept, c ≠ [] ∧ slash ∉ c) (hcs : ∀ c ∈ cs, slash ∉ c) :
    ∀ c ∈ reduce rooted kept cs, c ≠ [] ∧ slash ∉ c := by
  have hup : up ≠ [] ∧ slash ∉ up := by decide
  fun_induction reduce rooted kept cs with
  | case1 kept => simpa using hkept
  | case2 kept c cs h ih => exact ih hkept fun c' hc' => hcs c' (List.mem_cons_of_mem c hc')
  | case3 cs h ih =>
    refine ih ?_ fun c' hc' => hcs c' (List.mem_cons_of_mem _ hc')
    split <;> simp [hup]
  | case4 cs ks h ih =>
    exact ih (List.forall_mem_cons.mpr ⟨hup, hkept⟩) fun c' hc' => hcs c' (List.mem_cons_of_mem _ hc')
  | case5 cs k ks h hk ih =>
    exact ih (List.forall_mem_cons.mp hkept).2 fun c' hc' => hcs c' (List.mem_cons_of_mem _ hc')
  | case6 kept c cs h h' ih =>
    have hc : c ≠ [] ∧ slash ∉ c := ⟨fun hnil => h (Or.inl hnil), hcs c List.mem_cons_self⟩
    exact ih (List.forall_mem_cons.mpr ⟨hc, hkept⟩) fun c' hc' => hcs c' (List.mem_cons_of_mem c hc')

/-- A cleaned name does not end in a slash, unless it is the root. -/
theorem withoutTrailing_clean (p : Text) :
    clean p = [slash] ∨ withoutTrailing (clean p) = clean p := by
  have hcomponents : ∀ c ∈ components p, c ≠ [] ∧ slash ∉ c :=
    ne_nil_of_mem_reduce _ (by simp) fun c hc => Text.not_mem_of_mem_splitOn hc
  have hend : ∀ (t c : Text), c ≠ [] ∧ slash ∉ c → withoutTrailing (t ++ c) = t ++ c := by
    rintro t c ⟨hne, hslash⟩
    obtain ⟨front, b, rfl⟩ := (List.eq_nil_or_concat c).resolve_left hne
    have hb : b ≠ slash := fun heq => hslash (by simp [heq])
    simp [withoutTrailing, hb]
  unfold clean
  generalize components p = cs at hcomponents ⊢
  -- The last component, if there is one, stands at the end of the name.
  cases cs using List.reverseRecOn with
  | nil =>
    split
    · exact Or.inl rfl
    · exact Or.inr rfl
  | append_singleton cs c =>
    have hc := hcomponents c (by simp)
    right
    split
    · rw [absolute_concat, List.append_cons]
      exact hend _ c hc
    · obtain ⟨front, hfront, _⟩ := relative_concat cs c
      rw [hfront]
      exact hend front c hc

theorem base_absolute_concat (cs : List Text) {c : Text} (hc : Ordinary c) :
    base (absolute (cs ++ [c])) = c := by
  rw [base, absolute_concat, withoutTrailing_append hc]
  simp only [afterSlash_append hc.noSlash]
  rw [if_neg (by simp), if_neg hc.ne_nil]

theorem getLast?_absolute_concat (cs : List Text) {c : Text} (hc : Ordinary c) :
    (absolute (cs ++ [c])).getLast? ≠ some slash := by
  obtain ⟨front, b, rfl, hb⟩ := hc.exists_last
  rw [absolute_concat, ← List.cons_append, ← List.append_assoc, List.getLast?_concat]
  simpa using hb

theorem join_absolute_ordinary {cs : List Text} (h : Plain cs) {c : Text} (hc : Ordinary c) :
    join [absolute cs, c] = absolute (cs ++ [c]) := by
  have hcomponents : components (absolute cs ++ slash :: c) = cs ++ [c] := by
    have habs : isAbsolute (absolute cs ++ slash :: c) = true := rfl
    rw [components, habs, ← reduce_filter, pieces, Text.splitOn_append_sep, List.filter_append,
      ← pieces, filter_pieces_absolute h, Text.splitOn_of_not_mem hc.noSlash]
    simpa [hc.ne_nil] using reduce_plain true [] (h.concat hc)
  rw [← hcomponents, ← clean_eq_absolute rfl]
  simp [join, absolute, Text.intercalate]

theorem prefix_of_startsWith {cs cs' : List Text} (h : Plain cs) (h' : Plain cs')
    (hstart : (absolute cs').startsWith (absolute cs ++ [slash]) = true) : cs <+: cs' := by
  obtain ⟨rest, hrest⟩ := List.isPrefixOf_iff_prefix.mp hstart
  refine ⟨(pieces rest).filter (· ≠ []), ?_⟩
  have hpieces := filter_pieces_absolute h'
  rw [← hrest, List.append_assoc, List.singleton_append, pieces, Text.splitOn_append_sep,
    List.filter_append] at hpieces
  rw [← hpieces]
  exact congrArg (· ++ _) (filter_pieces_absolute h).symm

end Path

end Gauntlet
