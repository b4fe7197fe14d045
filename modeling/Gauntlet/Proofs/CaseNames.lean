import Gauntlet.Course
import Gauntlet.Selection
import Gauntlet.Proofs.Artifacts
import Gauntlet.Proofs.PlainPath

/-! # Names of cases

  Artifacts are named after cases, so different cases must have different names. A selection
  sees to that (`select_names`). The name of an artifact ends in the name of its case and a
  suffix, wherever the scratch directory is (`pieces_join`), so the artifacts of different
  cases have different places (`places_disjoint`).
-/

namespace Gauntlet

namespace Path

/-! ### Last components -/

/-- The form of a last component: it has no slash, unless it is the root. -/
def IsBase (c : Text) : Prop := c = [slash] ∨ (c ≠ [] ∧ slash ∉ c)

theorem isBase_base (p : Text) : IsBase (base p) := by
  unfold base
  split
  · exact Or.inr ⟨by decide, by decide⟩
  · dsimp only
    split
    · exact Or.inl rfl
    · rename_i hne
      refine Or.inr ⟨hne, fun hmem => ?_⟩
      have hslash := List.all_eq_true.mp List.all_takeWhile _ (List.mem_reverse.mp hmem)
      simp at hslash

/-- A name without its slashes. -/
def stem (c : Text) : Text := c.filter (· ≠ slash)

theorem stem_of_noSlash {c : Text} (hc : slash ∉ c) : stem c = c := by
  refine List.filter_eq_self.mpr fun b hb => ?_
  have hne : b ≠ slash := fun heq => hc (heq ▸ hb)
  simpa using hne

/-- Last components are told apart without slashes. -/
theorem IsBase.eq_of_stem {a b : Text} (ha : IsBase a) (hb : IsBase b) (h : stem a = stem b) :
    a = b := by
  rcases ha with rfl | ⟨hne, ha⟩ <;> rcases hb with rfl | ⟨hne', hb⟩
  · rfl
  · rw [stem_of_noSlash hb] at h
    exact absurd h.symm hne'
  · rw [stem_of_noSlash ha] at h
    exact absurd h hne
  · rwa [stem_of_noSlash ha, stem_of_noSlash hb] at h

/-! ### Joined names -/

theorem pieces_concat {t c : Text} (hc : slash ∉ c) (ht : t = [] ∨ ∃ t', t = t' ++ [slash]) :
    ∃ ps, pieces (t ++ c) = ps ++ [c] := by
  rcases ht with rfl | ⟨t', rfl⟩
  · exact ⟨[], by simp [pieces, Text.splitOn_of_not_mem hc]⟩
  · refine ⟨pieces t', ?_⟩
    rw [List.append_assoc, List.singleton_append, pieces, Text.splitOn_append_sep,
      Text.splitOn_of_not_mem hc]
    rfl

/-- Cleaning keeps the last component of a name, if it is an ordinary one. -/
theorem pieces_clean {t c : Text} (hc : Ordinary c) (ht : t = [] ∨ ∃ t', t = t' ++ [slash]) :
    ∃ ps, (pieces (clean (t ++ c))).filter (· ≠ []) = ps ++ [c] := by
  -- The cleaned name is made of components, of which the last is the same.
  obtain ⟨qs, hqs⟩ := pieces_concat hc.noSlash ht
  have hcomponents : components (t ++ c) = reduce (isAbsolute (t ++ c)) [] qs ++ [c] := by
    rw [components, hqs, reduce_concat _ ⟨hc.ne_nil, hc.ne_here, hc.ne_up⟩]
  obtain ⟨front, hfront, hend⟩ : ∃ front, clean (t ++ c) = front ++ c ∧
      (front = [] ∨ ∃ t', front = t' ++ [slash]) := by
    rw [clean, hcomponents]
    generalize reduce (isAbsolute (t ++ c)) [] qs = cs
    split
    · refine ⟨(if cs = [] then [] else absolute cs) ++ [slash], ?_, Or.inr ⟨_, rfl⟩⟩
      rw [absolute_concat, List.append_assoc, List.singleton_append]
    · exact relative_concat cs c
  obtain ⟨ps, hps⟩ := pieces_concat hc.noSlash hend
  refine ⟨ps.filter (· ≠ []), ?_⟩
  rw [hfront, hps, List.filter_append]
  simp [hc.ne_nil]

theorem pieces_join {name u : Text} (hname : IsBase name) (hu : Suffix u) (dir : Text) :
    ∃ ps, (pieces (join [dir, name ++ u])).filter (· ≠ []) = ps ++ [stem name ++ u] := by
  -- Before the last component comes nothing, or a slash.
  obtain ⟨t, hjoin, ht⟩ : ∃ t, join [dir, name ++ u] = clean (t ++ (stem name ++ u)) ∧
      (t = [] ∨ ∃ t', t = t' ++ [slash]) := by
    have hne : name ++ u ≠ [] := (hu.ordinary name).1
    by_cases hdir : dir = []
    · have hjoin : join [dir, name ++ u] = clean (name ++ u) := by
        simp [join, hdir, hne, Text.intercalate]
      rcases hname with rfl | ⟨_, hname⟩
      · exact ⟨[slash], hjoin, Or.inr ⟨[], rfl⟩⟩
      · exact ⟨[], by rw [hjoin, stem_of_noSlash hname]; rfl, Or.inl rfl⟩
    · have hjoin : join [dir, name ++ u] = clean (dir ++ [slash] ++ (name ++ u)) := by
        simp [join, hdir, Text.intercalate]
      rcases hname with rfl | ⟨_, hname⟩
      · refine ⟨dir ++ [slash] ++ [slash], ?_, Or.inr ⟨_, rfl⟩⟩
        rw [hjoin]
        simp [stem]
      · exact ⟨dir ++ [slash], by rw [hjoin, stem_of_noSlash hname], Or.inr ⟨dir, rfl⟩⟩
  have hslash : slash ∉ stem name ++ u := by
    rw [List.mem_append, not_or]
    exact ⟨by simp [stem], hu.noSlash⟩
  obtain ⟨hne, hhere, hup⟩ := hu.ordinary (stem name)
  rw [hjoin]
  exact pieces_clean ⟨hne, hslash, hhere, hup⟩ ht

end Path

/-! ### Places -/

namespace Artifacts

variable {scratch : Text} {a b : Case} {d : Disk} {x : Location}

/-- The place of an artifact ends in the name of the case and a suffix. -/
theorem place_of_mem (ha : Path.IsBase a.name) (hx : x ∈ (ofCase scratch a).places d) :
    ∃ dir u, u ∈ [(".s" : Text), ".out"] ∧ x = dir ++ [Path.stem a.name ++ u] := by
  obtain ⟨p, hp, hspot⟩ := mem_places.mp hx
  obtain ⟨u, hmem, hu, rfl⟩ : ∃ u, u ∈ [(".s" : Text), ".out"] ∧ Path.Suffix u ∧
      p = Path.join [scratch, a.name ++ u] := by
    rcases List.mem_cons.mp hp with rfl | hp
    · exact ⟨".s", by simp, suffix_assembly, rfl⟩
    · obtain rfl := List.mem_singleton.mp hp
      exact ⟨".out", by simp, suffix_binary, rfl⟩
  obtain ⟨dir, c, hholder, _, rfl⟩ := Disk.spot?_eq_some hspot
  obtain ⟨ps, hps⟩ := Path.pieces_join ha hu scratch
  refine ⟨dir, u, hmem, ?_⟩
  -- The directory holds the last component.
  unfold Disk.holder at hholder
  dsimp only at hholder
  rw [hps, List.getLast?_concat] at hholder
  cases hstart : d.start (Path.join [scratch, a.name ++ u]) with
  | error e => simp [hstart] at hholder
  | ok l =>
    rw [hstart] at hholder
    dsimp only at hholder
    split at hholder
    · simp at hholder
    · simp at hholder
    · obtain ⟨rfl, rfl⟩ : _ = dir ∧ Path.stem a.name ++ u = c := by simpa using hholder
      rfl

/-- The last component of an artifact tells the name of the case and the kind of artifact. -/
theorem stem_append_inj {name name' u u' : Text} (hname : Path.IsBase name)
    (hname' : Path.IsBase name') (hu : u ∈ [(".s" : Text), ".out"])
    (hu' : u' ∈ [(".s" : Text), ".out"]) (h : Path.stem name ++ u = Path.stem name' ++ u') :
    name = name' ∧ u = u' := by
  -- The suffixes end in different bytes, so they are the same, and then so are the names.
  have hne : ∀ v ∈ [(".s" : Text), ".out"], v ≠ [] := by decide
  have hend : u.getLast? = u'.getLast? := by
    rw [← List.getLast?_append_of_ne_nil (Path.stem name) (hne u hu), h,
      List.getLast?_append_of_ne_nil _ (hne u' hu')]
  obtain rfl : u = u' := by
    simp only [List.mem_cons, List.not_mem_nil, or_false] at hu hu'
    rcases hu with rfl | rfl <;> rcases hu' with rfl | rfl
    · rfl
    · exact absurd hend (by decide)
    · exact absurd hend (by decide)
    · rfl
  exact ⟨hname.eq_of_stem hname' (List.append_cancel_right h), rfl⟩

/-- Artifacts of cases with different names have different places. -/
theorem places_disjoint (ha : Path.IsBase a.name) (hb : Path.IsBase b.name)
    (hnames : a.name ≠ b.name) (hx : x ∈ (ofCase scratch a).places d) :
    x ∉ (ofCase scratch b).places d := by
  intro hx'
  obtain ⟨dir, u, hu, rfl⟩ := place_of_mem ha hx
  obtain ⟨dir', u', hu', heq⟩ := place_of_mem hb hx'
  have hlast : Path.stem a.name ++ u = Path.stem b.name ++ u' := by
    simpa using (List.append_inj' heq rfl).2
  exact hnames (stem_append_inj ha hb hu hu' hlast).1

end Artifacts

/-! ### Selections -/

namespace Selection

theorem distinctAfter_names {d : Disk} {seen cases : List Case} {ps : List Text}
    (h : distinctAfter d seen ps = .ok cases) (hseen : (seen.map Case.name).Nodup)
    (hbase : ∀ s ∈ seen, Path.IsBase s.name) :
    (cases.map Case.name).Nodup ∧ ∀ c ∈ cases, Path.IsBase c.name := by
  induction ps generalizing seen with
  | nil =>
    obtain rfl := Except.ok.inj h
    exact ⟨by simpa using hseen, by simpa using hbase⟩
  | cons p ps ih =>
    rw [distinctAfter] at h
    split at h
    · simp at h
    · rename_i hnone
      refine ih h ?_ ?_
      · rw [List.map_cons, List.nodup_cons]
        refine ⟨fun hmem => ?_, hseen⟩
        obtain ⟨s, hs, hname⟩ := List.mem_map.mp hmem
        have hother := List.find?_eq_none.mp hnone s hs
        exact hother (by simpa using hname)
      · intro s hs
        rcases List.mem_cons.mp hs with rfl | hs
        · exact Path.isBase_base _
        · exact hbase s hs

/-- Selected cases have different names, which are last components. -/
theorem select_names {d : Disk} {dir suffix pattern : Text} {cases : List Case}
    (h : select d dir suffix pattern = .ok cases) :
    (cases.map Case.name).Nodup ∧ ∀ c ∈ cases, Path.IsBase c.name := by
  unfold select at h
  split at h
  · simp at h
  · exact distinctAfter_names h (by simp) (by simp)

end Selection

end Gauntlet
