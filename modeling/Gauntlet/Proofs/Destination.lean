import Gauntlet.Archive.Target
import Gauntlet.Proofs.CleanPath

/-! # Which entries are inside the destination

  Whether the target of an entry is inside the destination is decided by text: the target is
  the destination, or starts with it and a slash. Being inside is a matter of components: the
  name of the entry is followed from the components of the destination (`resolve`), and leads
  to a place whose first components are still those of the destination.

  The two agree for every destination but the root directory (`startsWith_absolute_iff`). Its
  name ends in a slash, and no cleaned name starts with two of them, so that nothing but the
  root directory itself is accepted there (`target_can_refuse_inside`).
-/

namespace Gauntlet

namespace Path

/-! ### Following a name by its form -/

/-- Where one more component leads. -/
def follow (l : List Text) (c : Text) : List Text :=
  if c = [] ∨ c = here then l else if c = up then l.dropLast else l ++ [c]

/-- Where a name leads from a place; above the root directory is the root directory. -/
def resolve (l : List Text) (name : Text) : List Text := (pieces name).foldl follow l

/-- Cleaning an absolute name follows its components. -/
theorem reduce_eq_foldl {kept : List Text} (h : up ∉ kept) (cs : List Text) :
    reduce true kept cs = cs.foldl follow kept.reverse := by
  fun_induction reduce true kept cs with
  | case1 kept => rfl
  | case2 kept c cs hc ih =>
    have hstep : follow kept.reverse c = kept.reverse := by simp [follow, hc]
    rw [ih h, List.foldl_cons, hstep]
  | case3 cs hc ih => exact ih List.not_mem_nil
  | case4 cs ks hc ih =>
    -- There is no `..` among what is kept, so it is never the one to be taken back.
    exact absurd List.mem_cons_self h
  | case5 cs k ks hk hc ih =>
    have hks : up ∉ ks := fun hmem => h (List.mem_cons_of_mem k hmem)
    have hstep : follow (k :: ks).reverse up = ks.reverse := by
      rw [follow, if_neg hc, if_pos rfl, List.reverse_cons, List.dropLast_concat]
    rw [ih hks, List.foldl_cons, hstep]
  | case6 kept c cs hc hup ih =>
    have hkept : up ∉ c :: kept := by
      intro hmem
      rcases List.mem_cons.mp hmem with heq | hmem
      · exact hup heq.symm
      · exact h hmem
    have hstep : follow kept.reverse c = (c :: kept).reverse := by
      rw [follow, if_neg hc, if_neg hup, List.reverse_cons]
    rw [ih hkept, List.foldl_cons, hstep]

/-- A name below an absolute one is cleaned to the place where it leads from there. -/
theorem components_below {cs : List Text} (h : Plain cs) (name : Text) :
    components (absolute cs ++ slash :: name) = resolve cs name := by
  have hrooted : isAbsolute (absolute cs ++ slash :: name) = true := rfl
  have hfront : reduce true [] (pieces (absolute cs)) = cs := components_absolute h
  have hup : up ∉ cs.reverse := fun hmem => (h up (List.mem_reverse.mp hmem)).ne_up rfl
  calc components (absolute cs ++ slash :: name)
      = reduce true [] (pieces (absolute cs) ++ pieces name) := by
        rw [components, hrooted, pieces, Text.splitOn_append_sep, ← pieces, ← pieces]
    _ = reduce true cs.reverse (pieces name) := by rw [reduce_append, hfront]
    _ = resolve cs name := by rw [reduce_eq_foldl hup, List.reverse_reverse, resolve]

theorem plain_resolve {cs : List Text} (h : Plain cs) (name : Text) : Plain (resolve cs name) := by
  rw [← components_below h]
  exact plain_components rfl

theorem join_eq_resolve {cs : List Text} (h : Plain cs) (name : Text) :
    join [absolute cs, name] = absolute (resolve cs name) := by
  have hne : absolute cs ≠ [] := by simp [absolute]
  rw [join_eq_clean hne, clean_eq_absolute rfl, components_below h]

/-! ### Names that start with another name -/

/-- A name of more components goes on with a slash, unless it starts at the root. -/
theorem absolute_append_cons {cs : List Text} (hne : cs ≠ []) (c : Text) (more : List Text) :
    absolute cs ++ [slash] <+: absolute (cs ++ c :: more) := by
  have hfirst : absolute (cs ++ [c]) = absolute cs ++ slash :: c := by
    rw [absolute_concat, if_neg hne]
  have hmore : absolute (cs ++ [c]) <+: absolute (cs ++ c :: more) := by
    simpa using absolute_prefix (cs ++ [c]) more
  refine List.IsPrefix.trans ?_ hmore
  rw [hfirst]
  exact ⟨c, by simp⟩

/-- No plain name starts with two slashes. -/
theorem not_startsWith_root {cs : List Text} (h : Plain cs) :
    (absolute cs).startsWith (absolute [] ++ [slash]) = false := by
  cases cs with
  | nil => rfl
  | cons c cs =>
    have hc := h c List.mem_cons_self
    obtain ⟨b, t, rfl⟩ := List.exists_cons_of_ne_nil hc.ne_nil
    have hb : b ≠ slash := fun heq => hc.noSlash (by simp [heq])
    cases cs <;> simp [absolute, Text.intercalate, Text.startsWith, List.isPrefixOf, hb.symm]

/-- Below the root directory, what starts with a name and a slash has more components. -/
theorem startsWith_absolute_iff {cs cs' : List Text} (h : Plain cs) (h' : Plain cs')
    (hne : cs ≠ []) :
    (absolute cs').startsWith (absolute cs ++ [slash]) = true ↔ cs <+: cs' ∧ cs' ≠ cs := by
  constructor
  · intro hstart
    refine ⟨prefix_of_startsWith h h' hstart, ?_⟩
    rintro rfl
    -- A name is shorter than itself with a slash.
    have hlength : (absolute cs').length + 1 ≤ (absolute cs').length := by
      simpa using (List.isPrefixOf_iff_prefix.mp hstart).length_le
    omega
  · rintro ⟨⟨more, rfl⟩, hmore⟩
    cases more with
    | nil => simp at hmore
    | cons c more => exact List.isPrefixOf_iff_prefix.mpr (absolute_append_cons hne c more)

end Path

namespace Archive

open Gauntlet.Path

/-- The target of an entry for a destination that is given by its components. -/
theorem target_absolute {cs : List Text} (h : Plain cs) (name : Text) :
    target (absolute cs) name =
      if cs <+: resolve cs name ∧ (cs = [] → resolve cs name = []) then
        .ok (absolute (resolve cs name))
      else .error (escapes name) := by
  have hthere := plain_resolve h name
  unfold target
  rw [join_eq_resolve h]
  generalize resolve cs name = there at hthere
  have hsame : absolute there = absolute cs ↔ there = cs :=
    ⟨absolute_inj hthere h, fun heq => by rw [heq]⟩
  by_cases hroot : cs = []
  · subst hroot
    simp [hsame, not_startsWith_root hthere]
  · have hstart := startsWith_absolute_iff h hthere hroot
    by_cases hin : cs <+: there
    · by_cases heq : there = cs
      · simp [heq, hroot]
      · simp [hstart.mpr ⟨hin, heq⟩, hin, hroot]
    · have hne : there ≠ cs := by
        rintro rfl
        exact hin (List.prefix_refl _)
      have hnot : (absolute there).startsWith (absolute cs ++ [slash]) = false := by
        rw [← Bool.not_eq_true, hstart]
        exact fun hboth => hin hboth.1
      simp [hsame, hne, hnot, hin]

/-- An entry is accepted exactly if its name leads to a place inside the destination, and then
    its target is the cleaned name of that place; any other entry is refused because it escapes
    the destination. The root directory is an exception: what is inside it is refused, but for
    the root directory itself. -/
theorem target_exact {root : Text} (habsolute : isAbsolute root = true) (hclean : clean root = root)
    (name : Text) :
    (root ≠ [slash] → target root name =
      if components root <+: resolve (components root) name then
        .ok (absolute (resolve (components root) name))
      else .error (escapes name)) ∧
    (root = [slash] → target root name =
      if resolve [] name = [] then .ok [slash] else .error (escapes name)) ∧
    clean (absolute (resolve (components root) name)) =
      absolute (resolve (components root) name) ∧
    components (absolute (resolve (components root) name)) = resolve (components root) name := by
  have hplain : Plain (components root) := plain_components habsolute
  have hname : absolute (components root) = root := by rw [← clean_eq_absolute habsolute, hclean]
  have hthere : components (absolute (resolve (components root) name)) =
      resolve (components root) name := components_absolute (plain_resolve hplain name)
  refine ⟨?_, ?_, ?_, hthere⟩
  · intro hroot
    have hne : components root ≠ [] := by
      intro hnil
      apply hroot
      rw [← hname, hnil]
      rfl
    have htarget := target_absolute hplain name
    rw [hname] at htarget
    simpa [hne] using htarget
  · rintro rfl
    have htarget := target_absolute Plain.nil name
    rw [show absolute [] = [slash] from rfl] at htarget
    rw [htarget]
    by_cases hnil : resolve [] name = []
    · simp [hnil, absolute, Text.intercalate]
    · simp [hnil]
  · rw [clean_eq_absolute rfl, hthere]

namespace Sample

/-- A name that leaves the destination and comes back, one that ends beside it, and the root
    directory as a destination. -/
theorem target_exact_returning :
    (isAbsolute "/srv/root" = true ∧ clean "/srv/root" = "/srv/root" ∧
      ("/srv/root" : Text) ≠ [slash]) ∧
    target "/srv/root" "x/../../root//./y/" = .ok "/srv/root/y" ∧
    target "/srv/root" "../rootx" = .error (escapes "../rootx") ∧
    target "/" "a/.." = .ok "/" := by
  have habsolute : isAbsolute "/srv/root" = true := by decide
  have hclean : clean "/srv/root" = "/srv/root" := by decide
  have hne : ("/srv/root" : Text) ≠ [slash] := by decide
  refine ⟨⟨habsolute, hclean, hne⟩, ?_, ?_, ?_⟩
  · rw [(target_exact habsolute hclean _).1 hne, if_pos (by decide)]
    exact congrArg _ (by decide)
  · rw [(target_exact habsolute hclean _).1 hne, if_neg (by decide)]
  · rw [(target_exact (by decide) (by decide) _).2.1 (by decide), if_pos (by decide)]
    rfl

/-- An entry inside the root directory is refused, as if it were outside. -/
theorem target_can_refuse_inside :
    components "/" <+: resolve (components "/") "a" ∧
    target "/" "a" = .error (escapes "a") := by
  have hnil : components "/" = [] := by decide
  rw [hnil]
  exact ⟨List.nil_prefix, rfl⟩

end Sample

end Archive

end Gauntlet
