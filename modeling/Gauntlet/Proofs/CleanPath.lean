import Gauntlet.Proofs.Selecting

/-! # Cleaned names

  Cleaning a name a second time changes nothing (`clean_clean`), for relative names too: there
  `..` may stand, but only in front. So a name that is joined to a cleaned directory has the
  components of the directory and one more, and there are three ways in which it can be
  written (`Child`): below the root, below the directory `.`, which is left out, and below any
  other directory, from which a slash sets it apart.

  What is below a directory by its name is in the directory by where it leads (`Child.place`):
  on every disk, the way to the directory ends where the way to the name puts it.
-/

namespace Gauntlet

namespace Path

/-! ### Cleaning twice -/

/-- The components that come later are walked over with what the earlier ones have left. -/
theorem reduce_append (rooted : Bool) (kept cs cs' : List Text) :
    reduce rooted kept (cs ++ cs') = reduce rooted (reduce rooted kept cs).reverse cs' := by
  fun_induction reduce rooted kept cs with
  | case1 kept => simp
  | case2 kept c cs h ih => simp [reduce, h, ih]
  | case3 cs h ih => simp_all [reduce]
  | case4 cs ks h ih => simp_all [reduce]
  | case5 cs k ks h hk ih => simp_all [reduce]
  | case6 kept c cs h h' ih => simp_all [reduce]

/-- Components that reducing leaves as they are. -/
def Reduced (rooted : Bool) (cs : List Text) : Prop := reduce rooted [] cs = cs

/-- One more component is walked over with all of them kept. -/
theorem Reduced.concat {rooted : Bool} {cs : List Text} (h : Reduced rooted cs) (c : Text) :
    reduce rooted [] (cs ++ [c]) = reduce rooted cs.reverse [c] := by
  rw [reduce_append, h]

theorem reduced_reduce (rooted : Bool) (kept cs : List Text)
    (hkept : ∀ c ∈ kept, c ≠ [] ∧ c ≠ here) (h : Reduced rooted kept.reverse) :
    Reduced rooted (reduce rooted kept cs) := by
  -- The invariant is that the components kept so far would be kept again.
  fun_induction reduce rooted kept cs with
  | case1 kept => exact h
  | case2 kept c cs hc ih => exact ih hkept h
  | case3 cs hc ih =>
    cases rooted with
    | true => exact ih (by simp) rfl
    | false => exact ih (by decide) rfl
  | case4 cs ks hc ih =>
    refine ih (List.forall_mem_cons.mpr ⟨by decide, hkept⟩) ?_
    have hstep := h.concat up
    rw [List.reverse_reverse] at hstep
    rw [Reduced, List.reverse_cons, hstep]
    simp [reduce, hc]
  | case5 cs k ks hk hc ih =>
    have hrest : ∀ c ∈ ks, c ≠ [] ∧ c ≠ here := (List.forall_mem_cons.mp hkept).2
    obtain ⟨hne, hhere⟩ := hkept k List.mem_cons_self
    refine ih hrest ?_
    rw [Reduced, List.reverse_cons, reduce_concat rooted ⟨hne, hhere, hk⟩] at h
    exact List.append_cancel_right h
  | case6 kept c cs hc hup ih =>
    rw [not_or] at hc
    refine ih (List.forall_mem_cons.mpr ⟨hc, hkept⟩) ?_
    have hstep := h.concat c
    rw [List.reverse_reverse] at hstep
    rw [Reduced, List.reverse_cons, hstep]
    simp [reduce, hc, hup]

theorem reduced_components (p : Text) : Reduced (isAbsolute p) (components p) :=
  reduced_reduce _ _ _ (by simp) rfl

theorem mem_components {p c : Text} (h : c ∈ components p) : c ≠ [] ∧ slash ∉ c :=
  ne_nil_of_mem_reduce _ (by simp) (fun _ hc => Text.not_mem_of_mem_splitOn hc) c h

theorem isAbsolute_relative {cs : List Text} (h : ∀ c ∈ cs, c ≠ [] ∧ slash ∉ c) :
    isAbsolute (relative cs) = false := by
  unfold relative
  split
  · rfl
  · rename_i hne
    obtain ⟨c, cs, rfl⟩ := List.exists_cons_of_ne_nil hne
    obtain ⟨hc, hslash⟩ := h c List.mem_cons_self
    obtain ⟨b, t, rfl⟩ := List.exists_cons_of_ne_nil hc
    have hb : b ≠ slash := fun heq => hslash (by simp [heq])
    cases cs <;> simp [Text.intercalate, isAbsolute, hb]

theorem isAbsolute_clean (p : Text) : isAbsolute (clean p) = isAbsolute p := by
  unfold clean
  split
  · rename_i habsolute
    rw [isAbsolute_absolute, habsolute]
  · rename_i hrelative
    rw [isAbsolute_relative fun c => mem_components, Bool.not_eq_true] at *
    exact hrelative.symm

theorem components_clean (p : Text) : components (clean p) = components p := by
  by_cases habsolute : isAbsolute p = true
  · rw [clean_eq_absolute habsolute, components_absolute (plain_components habsolute)]
  · have hrelative : isAbsolute p = false := by simpa using habsolute
    have hreduced := reduced_components p
    rw [hrelative] at hreduced
    rw [components, isAbsolute_clean, hrelative, clean, if_neg habsolute, relative]
    split
    · rename_i hnil
      rw [hnil]
      rfl
    · rw [← reduce_filter, filter_pieces_intercalate fun c => mem_components, hreduced]

theorem clean_clean (p : Text) : clean (clean p) = clean p := by
  rw [clean, isAbsolute_clean, components_clean, ← clean]

theorem clean_ne_nil (p : Text) : clean p ≠ [] := by
  intro hnil
  have hclean := clean_clean p
  rw [hnil] at hclean
  exact absurd hclean (by decide)

theorem join_eq_clean {dir : Text} (hdir : dir ≠ []) (p : Text) :
    join [dir, p] = clean (dir ++ slash :: p) := by
  simp [join, hdir, Text.intercalate]

/-- A name that is joined to a directory is a cleaned one. -/
theorem exists_clean_join {p : Text} (hp : p ≠ []) (dir : Text) : ∃ q, join [dir, p] = clean q := by
  by_cases hdir : dir = []
  · exact ⟨p, by simp [join, hdir, hp, Text.intercalate]⟩
  · exact ⟨dir ++ slash :: p, join_eq_clean hdir p⟩

theorem exists_clean_anchor {p : Text} (hp : p ≠ []) (dir : Text) :
    ∃ q, anchor dir p = clean q := by
  unfold anchor
  split
  · exact ⟨p, rfl⟩
  · exact exists_clean_join hp dir

/-- A cleaned name depends only on where it starts and on its pieces. -/
theorem clean_congr {p p' : Text} (hroot : isAbsolute p = isAbsolute p')
    (hpieces : (pieces p).filter (· ≠ []) = (pieces p').filter (· ≠ [])) : clean p = clean p' := by
  have hcomponents : components p = components p' := by
    rw [components, components, hroot, ← reduce_filter, hpieces, reduce_filter]
  rw [clean, clean, hroot, hcomponents]

/-! ### One more component -/

theorem isAbsolute_append {p : Text} (hp : p ≠ []) (t : Text) :
    isAbsolute (p ++ t) = isAbsolute p := by
  obtain ⟨b, p, rfl⟩ := List.exists_cons_of_ne_nil hp
  rfl

/-- The name of an entry of a directory, by the name of the directory. -/
inductive Child (c : Text) : (dir p : Text) → Prop where
  | root : Child c [slash] (slash :: c)
  | here : Child c here c
  | below {dir : Text} (hne : dir ≠ []) (hlast : dir.getLast? ≠ some slash) :
      Child c dir (dir ++ slash :: c)

theorem components_child {c : Text} (hc : Ordinary c) (q : Text) :
    components (clean q ++ slash :: c) = components q ++ [c] := by
  rw [components, isAbsolute_append (clean_ne_nil q), pieces, Text.splitOn_append_sep,
    Text.splitOn_of_not_mem hc.noSlash, reduce_concat _ ⟨hc.ne_nil, hc.ne_here, hc.ne_up⟩,
    ← pieces, ← components, components_clean]

/-- Joining an ordinary component to a cleaned directory puts it below the directory. -/
theorem child_join {c : Text} (hc : Ordinary c) (q : Text) :
    Child c (clean q) (join [clean q, c]) := by
  have hroot : isAbsolute (clean q ++ slash :: c) = isAbsolute q := by
    rw [isAbsolute_append (clean_ne_nil q), isAbsolute_clean]
  have hlast : clean q = [slash] ∨ (clean q).getLast? ≠ some slash := by
    refine (withoutTrailing_clean q).imp id fun htrailing hslash => ?_
    obtain ⟨t, ht⟩ := List.getLast?_eq_some_iff.mp hslash
    rw [ht] at htrailing
    have hlength := congrArg List.length htrailing
    have hle := (List.dropWhile_suffix (fun b => decide (b = slash)) (l := t.reverse)).length_le
    simp [withoutTrailing] at hlength hle
    omega
  rw [join_eq_clean (clean_ne_nil q)]
  -- The cleaned name is made of the components of the directory and the new one.
  by_cases habsolute : isAbsolute q = true
  · have hjoin : clean (clean q ++ slash :: c) = absolute (components q ++ [c]) := by
      rw [clean_eq_absolute (hroot.trans habsolute), components_child hc]
    rw [hjoin, absolute_concat]
    split
    · rename_i hnil
      rw [clean_eq_absolute habsolute, hnil]
      exact .root
    · rename_i hne
      rw [← clean_eq_absolute habsolute]
      refine .below (clean_ne_nil q) (hlast.resolve_left fun heq => hne ?_)
      rw [← components_clean, heq]
      rfl
  · have hjoin : clean (clean q ++ slash :: c) = relative (components q ++ [c]) := by
      rw [clean, hroot, if_neg habsolute, components_child hc]
    have hclean : clean q = relative (components q) := by rw [clean, if_neg habsolute]
    rw [hjoin, hclean]
    by_cases hnil : components q = []
    · rw [hnil]
      exact .here
    · have hchild : relative (components q ++ [c]) = relative (components q) ++ slash :: c := by
        have habsolute := absolute_concat (components q) c
        rw [if_neg hnil, absolute, absolute, List.cons_append, List.cons.injEq] at habsolute
        rw [relative, relative, if_neg hnil, if_neg (by simp), habsolute.2]
      rw [hchild, ← hclean]
      refine .below (clean_ne_nil q) (hlast.resolve_left fun heq => habsolute ?_)
      rw [← isAbsolute_clean, heq]
      rfl

/-- The directory of an entry by the form of its name. -/
theorem Child.parent_eq {c dir p : Text} (h : Child c dir p) (hc : Ordinary c)
    (hdir : clean dir = dir) : parent p = dir := by
  cases h with
  | root =>
    have hfront := upToSlash_append hc.noSlash []
    rw [parent, ← List.nil_append (slash :: c), hfront]
    rfl
  | here =>
    have hall : c.reverse.dropWhile (· ≠ slash) = [] := by
      rw [← List.append_nil c.reverse, List.dropWhile_append_of_pos]
      · rfl
      · intro b hb
        have hne : b ≠ slash := fun heq => hc.noSlash (heq ▸ List.mem_reverse.mp hb)
        simpa using hne
    rw [parent, hall]
    rfl
  | below hne hlast =>
    rw [parent, upToSlash_append hc.noSlash, clean, isAbsolute_append hne, components_slash dir hne,
      ← clean, hdir]

end Path

/-! ### Where an entry is -/

namespace Disk

open Gauntlet.Path (Child Ordinary)

variable {d : Disk} {c dir p : Text} {l x : Location}

/-- Names that start alike start at the same location, if they are both well-formed. -/
theorem start_of_start {q : Text} (h : d.start p = .ok l) (hzero : q.contains 0 = false)
    (hne : q ≠ []) (hlength : q.length < pathLimit)
    (habsolute : Path.isAbsolute q = Path.isAbsolute p) : d.start q = .ok l := by
  unfold start at h ⊢
  rw [hzero, if_neg Bool.false_ne_true, if_neg hne, if_neg (Nat.not_le.mpr hlength), habsolute]
  split at h
  · simp at h
  · split at h
    · simp at h
    · split at h
      · simp at h
      · exact h

/-- The way to the spot of a path. -/
theorem walk_of_spot {front : List Text} (hx : d.spot? p = some x)
    (hp : (Path.pieces p).filter (· ≠ []) = front ++ [c]) :
    ∃ l, d.start p = .ok l ∧
      d.walk true linkLimit l (front ++ [Path.here]) = .ok (.found x.dropLast) := by
  obtain ⟨dir, c', hholder, _, rfl⟩ := spot?_eq_some hx
  unfold holder at hholder
  dsimp only at hholder
  rw [hp, List.getLast?_concat, List.dropLast_concat] at hholder
  rw [List.dropLast_concat]
  cases hstart : d.start p with
  | error e => simp [hstart] at hholder
  | ok l =>
    rw [hstart] at hholder
    dsimp only at hholder
    refine ⟨l, rfl, ?_⟩
    split at hholder
    · simp at hholder
    · simp at hholder
    · rename_i hwalk
      obtain ⟨rfl, _⟩ : _ = dir ∧ c = c' := by simpa using hholder
      exact hwalk

/-- The way to an entry of a directory leads to the directory first. -/
theorem place_of_child (h : Child c dir p) (hc : Ordinary c) (hx : d.spot? p = some x) :
    d.place true dir = .ok (.found x.dropLast) := by
  have hpiece : (Path.pieces c).filter (· ≠ []) = [c] := by
    rw [Path.pieces, Text.splitOn_of_not_mem hc.noSlash]
    simp [hc.ne_nil]
  cases h with
  | root =>
    have hp : (Path.pieces (Path.slash :: c)).filter (· ≠ []) = [] ++ [c] := by
      rw [← List.nil_append (Path.slash :: c), Path.pieces, Text.splitOn_append_sep,
        List.filter_append, ← Path.pieces, ← Path.pieces, hpiece]
      rfl
    obtain ⟨l, hstart, hwalk⟩ := walk_of_spot hx hp
    obtain ⟨onLink, happend⟩ : ∃ onLink, d.walk true linkLimit l ([] ++ []) =
        d.walkWith true onLink x.dropLast [] := walk_append (Or.inr rfl) linkLimit l [] hwalk
    have hroot := start_of_start hstart (q := [Path.slash]) rfl (by simp) (by decide) rfl
    rw [place, hroot]
    exact happend
  | here =>
    obtain ⟨l, hstart, hwalk⟩ := walk_of_spot hx (hpiece.trans (List.nil_append [c]).symm)
    have habsolute : Path.isAbsolute c = false := by
      obtain ⟨b, t, rfl⟩ := List.exists_cons_of_ne_nil hc.ne_nil
      have hb : b ≠ Path.slash := fun heq => hc.noSlash (by simp [heq])
      simp [Path.isAbsolute, hb]
    have hhere := start_of_start hstart (q := Path.here) rfl (by decide) (by decide)
      (by rw [habsolute]; rfl)
    rw [place, hhere]
    exact hwalk
  | below hne hlast =>
    have hp : (Path.pieces (dir ++ Path.slash :: c)).filter (· ≠ []) =
        (Path.pieces dir).filter (· ≠ []) ++ [c] := by
      rw [Path.pieces, Text.splitOn_append_sep, List.filter_append, ← Path.pieces, ← Path.pieces,
        hpiece]
    obtain ⟨l, hstart, hwalk⟩ := walk_of_spot hx hp
    obtain ⟨onLink, happend⟩ : ∃ onLink, d.walk true linkLimit l
        ((Path.pieces dir).filter (· ≠ []) ++ []) = d.walkWith true onLink x.dropLast [] :=
      walk_append (Or.inr rfl) linkLimit l _ hwalk
    obtain ⟨hzero, hlength, _⟩ := start_eq_ok hstart
    have hdir : d.start dir = .ok l := by
      refine start_of_start hstart ?_ hne ?_ ?_
      · simp at hzero ⊢
        exact hzero.1
      · simp at hlength
        omega
      · exact (Path.isAbsolute_append hne _).symm
    have hsteps : steps dir = (Path.pieces dir).filter (· ≠ []) := by
      rw [steps]
      exact if_neg fun hslash => hlast hslash.2
    rw [place, hdir, hsteps]
    rw [List.append_nil] at happend
    exact happend

end Disk

end Gauntlet
