import Gauntlet.Artifacts
import Gauntlet.Proofs.Heedless

/-! # Clearing artifacts

  The two artifacts of a case have names that differ in a suffix only, so the way to them is
  the same and they have their places in one directory. What clearing them does follows
  from that:

  - On a disk with leftovers at these places, and nowhere else, it gives back the disk
    without leftovers (`clean_sameBut`). All that remains of a leftover is the change time
    of the directory.
  - On any disk, nothing is at the paths of the artifacts once they have been cleared
    (`lacks_of_clean`).
-/

namespace Gauntlet

namespace Disk

variable {d : Disk} {front u v : Text}

/-- The way to the directory of a name does not depend on a suffix of the name. -/
theorem holder_append (d : Disk) (front : Text) :
    ∃ ps last, ∀ u, Path.Suffix u → d.holder (front ++ u) =
      match d.start (front ++ u) with
      | .error e => .error e
      | .ok l =>
        match d.walk true linkLimit l (ps ++ [Path.here]) with
        | .error e => .error e
        | .ok (.free _ _) => .error .missing
        | .ok (.found dir) => .ok (dir, some (last ++ u)) := by
  obtain ⟨ps, last, hpieces⟩ := Path.pieces_append front
  refine ⟨ps, last, fun u hu => ?_⟩
  unfold holder
  cases d.start (front ++ u) with
  | error e => rfl
  | ok l =>
    rcases hw : d.walk true linkLimit l (ps ++ [Path.here]) with e | (_ | _) <;>
      simp only [hpieces u hu, List.getLast?_concat, List.dropLast_concat, hw]

/-- Names that differ in a suffix start at the same place, unless one is refused by its
    form. -/
theorem start_append {l : Location} (hu : Path.Suffix u) (hv : Path.Suffix v)
    (h : d.start (front ++ u) = .ok l) :
    d.start (front ++ v) =
      if (front ++ v).contains 0 then .error .invalid
      else if pathLimit ≤ (front ++ v).length then .error .nameTooLong
      else .ok l := by
  unfold start at h ⊢
  rw [hu.isAbsolute_append] at h
  rw [hv.isAbsolute_append, if_neg (hv.ordinary front).1]
  rw [if_neg (hu.ordinary front).1] at h
  split at h
  · simp at h
  split at h
  · simp at h
  rw [h]

/-- A name with a suffix that is not longer has a location in the same directory. -/
theorem spot?_append {y : Location} (hu : Path.Suffix u) (hv : Path.Suffix v)
    (hzero : (0 : UInt8) ∉ u) (hlen : u.length ≤ v.length)
    (h : d.spot? (front ++ v) = some y) :
    ∃ x, d.spot? (front ++ u) = some x ∧ x.dropLast = y.dropLast := by
  obtain ⟨ps, last, hholder⟩ := holder_append d front
  obtain ⟨dir, c, hv', hc, rfl⟩ := spot?_eq_some h
  rw [hholder v hv] at hv'
  cases hs : d.start (front ++ v) with
  | error e => simp [hs] at hv'
  | ok l =>
    have hstart : d.start (front ++ u) = .ok l := by
      rw [start_append hv hu hs]
      obtain ⟨hnul, hshort, _⟩ := start_eq_ok hs
      have hnul' : (front ++ u).contains 0 = false := by
        simp only [List.contains_eq_mem, List.mem_append, decide_eq_false_iff_not, not_or]
          at hnul ⊢
        exact ⟨hnul.1, hzero⟩
      have hshort' : ¬ pathLimit ≤ (front ++ u).length := by
        simp only [List.length_append] at hshort ⊢
        omega
      rw [hnul', if_neg Bool.false_ne_true, if_neg hshort']
    rw [hs] at hv'
    dsimp only at hv'
    cases hw : d.walk true linkLimit l (ps ++ [Path.here]) with
    | error e => simp [hw] at hv'
    | ok place =>
      rw [hw] at hv'
      cases place with
      | free _ _ => simp at hv'
      | found dir' =>
        obtain ⟨rfl, rfl⟩ : dir' = dir ∧ last ++ v = c := by simpa using hv'
        have hheld : d.holder (front ++ u) = .ok (dir', some (last ++ u)) := by
          rw [hholder u hu, hstart]
          simp only [hw]
        have hshort : irremovable? (some (last ++ u)) = none := by
          have hlong := (irremovable?_eq_none hc).2.2
          have hord := (hu.ordinary last).2
          simp only [List.length_append] at hlong
          simp only [irremovable?, hord.1, hord.2, if_false, List.length_append]
          rw [if_neg (by omega)]
        exact ⟨dir' ++ [last ++ u], by simp [spot?, hheld, hshort], by simp⟩

/-- Where one name has a location, the way to another that differs in a suffix is not
    missing. -/
theorem holder_append_ne_missing {y : Location} (hu : Path.Suffix u) (hv : Path.Suffix v)
    (h : d.spot? (front ++ v) = some y) : d.holder (front ++ u) ≠ .error .missing := by
  obtain ⟨ps, last, hholder⟩ := holder_append d front
  obtain ⟨dir, c, hv', hc, rfl⟩ := spot?_eq_some h
  rw [hholder v hv] at hv'
  rw [hholder u hu]
  cases hs : d.start (front ++ v) with
  | error e => simp [hs] at hv'
  | ok l =>
    rw [start_append hv hu hs]
    rw [hs] at hv'
    dsimp only at hv'
    split
    · rename_i e he
      split at he
      · simp [← Except.error.inj he]
      · split at he
        · simp [← Except.error.inj he]
        · simp at he
    · rename_i l' hl'
      split at hl'
      · simp at hl'
      · split at hl'
        · simp at hl'
        · obtain rfl := Except.ok.inj hl'
          split at hv' <;> simp_all

/-! ### Disks that differ at some locations -/

/-- The second disk is the first but for the nodes at some locations. -/
structure SameBut (spots : List Location) (e d : Disk) : Prop where
  cwd : d.cwd = e.cwd
  now : d.now = e.now
  mask : d.mask = e.mask
  draws : d.draws = e.draws
  elsewhere : ∀ l, l ∉ spots → d.node? l = e.node? l

theorem SameBut.eq_of_nil {e d : Disk} (h : SameBut [] e d) : d = e :=
  ext_node (fun l => h.elsewhere l (by simp)) h.cwd h.now h.mask h.draws

theorem SameBut.refl (spots : List Location) (e : Disk) : SameBut spots e e :=
  ⟨rfl, rfl, rfl, rfl, fun _ _ => rfl⟩

theorem SameBut.put {spots : List Location} {e d : Disk} (h : SameBut spots e d) {x : Location}
    (hx : x ∈ spots) (n : Node) : SameBut spots e (d.put x n) := by
  refine ⟨h.cwd, h.now, h.mask, h.draws, fun l hl => ?_⟩
  have hne : l ≠ x := fun heq => hl (heq ▸ hx)
  rw [node?_put, if_neg hne]
  exact h.elsewhere l hl

theorem touchDir_touchDir (d : Disk) (l : Location) :
    (d.touchDir l).touchDir l = d.touchDir l := by
  refine ext_node (fun l' => ?_) rfl rfl rfl rfl
  rw [node?_touchDir, node?_touchDir]
  split
  · cases d.node? l' with
    | none => rfl
    | some n => cases n <;> rfl
  · rfl

theorem alike_touchDir (d : Disk) (l : Location) : Alike [l] d (d.touchDir l) := by
  refine ⟨rfl, rfl, rfl, fun l' => ?_⟩
  rw [node?_touchDir]
  split
  · rename_i heq
    rcases hn : d.node? l' with _ | (⟨data, m, t⟩ | ⟨m, t⟩ | target)
    · exact Or.inl rfl
    · exact Or.inl rfl
    · exact Or.inr ⟨by simp [heq], m, t, d.now, rfl, rfl⟩
    · exact Or.inl rfl
  · exact Or.inl rfl

theorem spot?_touchDir (d : Disk) (l : Location) (p : Text) :
    (d.touchDir l).spot? p = d.spot? p :=
  spot?_congr (holder_congr (alike_touchDir d l).sameLayout p).symm

theorem changeable_touchDir (d : Disk) (l l' : Location) :
    (d.touchDir l).changeable l' = d.changeable l' :=
  changeable_congr ((alike_touchDir d l).sameLayout.node l').symm

end Disk

namespace Artifacts

open Disk (SameBut)

/-! ### The places of artifacts -/

/-- The paths of the artifacts, in the order in which they are removed. -/
def paths (a : Artifacts) : List Text := [a.assembly, a.binary]

theorem mem_paths {a : Artifacts} {p : Text} : p ∈ a.paths ↔ p = a.assembly ∨ p = a.binary := by
  simp [paths]

theorem assembly_mem_paths (a : Artifacts) : a.assembly ∈ a.paths := mem_paths.mpr (Or.inl rfl)

theorem binary_mem_paths (a : Artifacts) : a.binary ∈ a.paths := mem_paths.mpr (Or.inr rfl)

/-- The locations that the artifacts have on a disk, as far as there is a way to them. -/
def places (a : Artifacts) (d : Disk) : List Location := a.paths.filterMap d.spot?

/-- A disk without artifacts: nothing is at their places or below, and the working directory
    is not there either. -/
structure Clear (a : Artifacts) (d : Disk) : Prop where
  bare : ∀ x ∈ a.places d, ∀ l, x <+: l → d.node? l = none
  home : ∀ l ∈ d.cwd, Disk.Off (a.places d) l

theorem clear_iff {a : Artifacts} {d : Disk} :
    a.Clear d ↔ (∀ x ∈ a.places d, ∀ q ∈ d.nodes.pairs, ¬ x <+: q.1) ∧
      ∀ l ∈ d.cwd.toList, ∀ x ∈ a.places d, ¬ x <+: l := by
  constructor
  · intro h
    refine ⟨fun x hx q hq hpre => ?_, fun l hl x hx => h.home l (by simpa using hl) x hx⟩
    have hnode : d.node? q.1 = some q.2 := (SortedMap.mem_pairs_iff d.nodes q.1 q.2).mp hq
    rw [h.bare x hx q.1 hpre] at hnode
    exact absurd hnode (by simp)
  · rintro ⟨hbare, hhome⟩
    refine ⟨fun x hx l hpre => ?_, fun l hl x hx => hhome l (by simpa using hl) x hx⟩
    cases hl : d.node? l with
    | none => rfl
    | some n =>
      exact absurd hpre (hbare x hx (l, n) ((SortedMap.mem_pairs_iff d.nodes l n).mpr hl))

instance (a : Artifacts) (d : Disk) : Decidable (a.Clear d) := decidable_of_iff _ clear_iff.symm

/-- Artifacts that differ in their suffixes only. -/
def Siblings (a : Artifacts) : Prop :=
  ∃ front : Text, a.assembly = front ++ ".s" ∧ a.binary = front ++ ".out"

theorem suffix_assembly : Path.Suffix ".s" := ⟨by decide, 115, by decide, by decide⟩

theorem suffix_binary : Path.Suffix ".out" := ⟨by decide, 111, by decide, by decide⟩

theorem siblings_ofCase (scratch : Text) (c : Case) : (ofCase scratch c).Siblings := by
  obtain ⟨front, h⟩ := Path.join_append scratch c.name
  exact ⟨front, h _ suffix_assembly, h _ suffix_binary⟩

variable {a : Artifacts} {d e : Disk} {p : Text} {x y : Location}

theorem Siblings.exists_front (ha : a.Siblings) :
    ∃ front, ∀ p ∈ a.paths, ∃ u, Path.Suffix u ∧ p = front ++ u := by
  obtain ⟨front, hs, hb⟩ := ha
  refine ⟨front, fun p hp => ?_⟩
  rcases mem_paths.mp hp with rfl | rfl
  · exact ⟨_, suffix_assembly, hs⟩
  · exact ⟨_, suffix_binary, hb⟩

theorem mem_places : x ∈ a.places d ↔ ∃ p ∈ a.paths, d.spot? p = some x :=
  List.mem_filterMap

theorem ne_nil_of_mem_places (h : x ∈ a.places d) : x ≠ [] := by
  obtain ⟨p, _, hx⟩ := mem_places.mp h
  obtain ⟨dir, c, _, _, rfl⟩ := Disk.spot?_eq_some hx
  simp

/-- If the binary has a place, then so has the assembly, in the same directory. -/
theorem Siblings.spot?_assembly (ha : a.Siblings) (h : d.spot? a.binary = some y) :
    ∃ x, d.spot? a.assembly = some x ∧ x.dropLast = y.dropLast := by
  obtain ⟨front, hs, hb⟩ := ha
  rw [hb] at h
  rw [hs]
  exact Disk.spot?_append suffix_assembly suffix_binary (by decide) (by decide) h

/-- The artifacts have their places in one directory. -/
theorem Siblings.dropLast_eq (ha : a.Siblings) (hx : x ∈ a.places d) (hy : y ∈ a.places d) :
    x.dropLast = y.dropLast := by
  -- Both are in the directory of the assembly.
  have hdir : ∀ {z}, z ∈ a.places d → ∃ s, d.spot? a.assembly = some s ∧
      s.dropLast = z.dropLast := by
    intro z hz
    obtain ⟨p, hp, hz⟩ := mem_places.mp hz
    rcases List.mem_cons.mp hp with rfl | hp
    · exact ⟨z, hz, rfl⟩
    · obtain rfl := List.mem_singleton.mp hp
      exact ha.spot?_assembly hz
  obtain ⟨s, hs, hsx⟩ := hdir hx
  obtain ⟨s', hs', hsy⟩ := hdir hy
  obtain rfl : s = s' := Option.some.inj (hs.symm.trans hs')
  rw [← hsx, hsy]

/-- If one of the artifacts has a place, the way to the other is not missing. -/
theorem Siblings.holder_ne_missing (ha : a.Siblings) (hx : x ∈ a.places d) (hp : p ∈ a.paths) :
    d.holder p ≠ .error .missing := by
  obtain ⟨front, hform⟩ := ha.exists_front
  obtain ⟨q, hq, hx⟩ := mem_places.mp hx
  obtain ⟨u, hu, rfl⟩ := hform p hp
  obtain ⟨v, hv, rfl⟩ := hform q hq
  exact Disk.holder_append_ne_missing hu hv hx

/-- The directory of the artifacts is not the place of one. -/
theorem Siblings.dropLast_notMem (ha : a.Siblings) (hx : x ∈ a.places d) :
    x.dropLast ∉ a.places d := by
  intro hmem
  have heq := congrArg List.length (ha.dropLast_eq hx hmem)
  have hpos := List.length_pos_iff.mpr (ne_nil_of_mem_places hmem)
  simp only [List.length_dropLast] at heq hpos
  omega

/-- No artifact has its place right below another. -/
theorem Siblings.child_notMem (ha : a.Siblings) (hx : x ∈ a.places d) (c : Text) :
    x ++ [c] ∉ a.places d := by
  intro hmem
  have heq := congrArg List.length (ha.dropLast_eq hx hmem)
  have hpos := List.length_pos_iff.mpr (ne_nil_of_mem_places hx)
  simp only [List.length_dropLast, List.length_append, List.length_singleton] at heq
  omega

/-! ### Clearing leftovers -/

theorem Clear.node?_eq_none (h : a.Clear e) (hx : x ∈ a.places e) : e.node? x = none :=
  h.bare x hx x List.prefix_rfl

/-- The ways to the artifacts do not lead through leftovers. -/
theorem holder_sameBut (ha : a.Siblings) (he : a.Clear e) {left : List Location}
    (hleft : left ⊆ a.places e) (h : SameBut left e d) (hp : p ∈ a.paths) :
    d.holder p = e.holder p := by
  have hwithout : Disk.Without left d e :=
    ⟨h.cwd.symm, fun l hl => by rw [h.elsewhere l hl], fun l hl => he.node?_eq_none (hleft hl)⟩
  rcases Disk.holder_without hwithout p with heq | hmissing | ⟨_, hoff⟩
  · exact heq.symm
  · -- Without a way there is no place, so there is no leftover either.
    obtain rfl : left = [] := by
      refine List.eq_nil_iff_forall_not_mem.mpr fun x hx => ?_
      exact ha.holder_ne_missing (hleft hx) hp hmissing
    rw [h.eq_of_nil]
  · refine absurd ⟨fun x hx => ?_, fun l hl x hx => ?_⟩ hoff
    · exact ⟨ne_nil_of_mem_places (hleft hx), he.bare x (hleft hx)⟩
    · rw [h.cwd] at hl
      exact he.home l hl x (hleft hx)

/-- Clearing one path of a disk with leftovers. Only the leftover at its place is removed,
    and its directory is touched. -/
theorem discard_sameBut (ha : a.Siblings) (he : a.Clear e)
    (hc : ∀ x ∈ a.places e, e.changeable x.dropLast = true) {left : List Location}
    (hleft : left ⊆ a.places e) (h : SameBut left e d) (hp : p ∈ a.paths)
    (hx : e.spot? p = some x) :
    (d.node? x = none ∧ discard d p = .ok d ∧ SameBut (left.filter (· ≠ x)) e d) ∨
    ((d.node? x).isSome = true ∧ ∃ d', discard d p = .ok d' ∧
      SameBut (left.filter (· ≠ x)) (e.touchDir x.dropLast) d') := by
  have hmem : x ∈ a.places e := mem_places.mpr ⟨p, hp, hx⟩
  have hx' : d.spot? p = some x :=
    (Disk.spot?_congr (holder_sameBut ha he hleft h hp)).trans hx
  have hnone : e.node? x = none := he.node?_eq_none hmem
  cases hn : d.node? x with
  | none =>
    -- There is no leftover at this place, and removing nothing is no failure.
    refine Or.inl ⟨rfl, ?_, h.cwd, h.now, h.mask, h.draws, fun l hl => ?_⟩
    · simp [discard, Disk.remove_of_spot_some hx', hn]
    · by_cases hlx : l = x
      · rw [hlx, hn, hnone]
      · exact h.elsewhere l fun hl' => hl (by simp [hl', hlx])
  | some n =>
    -- A leftover can be removed: it is no directory with something in it, and it lies in a
    -- directory that is not itself a leftover.
    have hparent : d.node? x.dropLast = e.node? x.dropLast :=
      h.elsewhere _ fun hmem' => ha.dropLast_notMem hmem (hleft hmem')
    have hempty : d.names x = [] := by
      refine Disk.names_eq_nil fun c => ?_
      rw [h.elsewhere _ fun hmem' => ha.child_notMem hmem c (hleft hmem')]
      exact he.bare x hmem _ (List.prefix_append x [c])
    have hslash : p.getLast? ≠ some Path.slash := by
      obtain ⟨front, hform⟩ := ha.exists_front
      obtain ⟨u, hu, rfl⟩ := hform p hp
      exact hu.getLast?_ne_slash front
    have hchange : d.changeable x.dropLast = true := by
      rw [← hc x hmem]
      exact Disk.changeable_congr (by rw [hparent])
    have hremove : d.remove p = .ok ((d.drop x).touchDir x.dropLast) := by
      simp [Disk.remove_of_spot_some hx', hn, hslash, hchange, hempty]
    refine Or.inr ⟨rfl, (d.drop x).touchDir x.dropLast, ?_, h.cwd, h.now, h.mask, h.draws,
      fun l hl => ?_⟩
    · simp [discard, hremove]
    · have hnode : (d.drop x).node? l = e.node? l := by
        rw [Disk.node?_drop]
        split
        · rename_i hlx
          rw [hlx, hnone]
        · rename_i hlx
          exact h.elsewhere l fun hl' => hl (by simp [hl', hlx])
      rw [Disk.node?_touchDir, Disk.node?_touchDir, hnode]
      show (if _ then Option.map (Node.touched d.now) _ else _) = _
      rw [h.now]

/-- Clearing a path without a place changes nothing, and fails or not for a reason that lies
    in the way to it. -/
theorem discard_of_spot_none (hholder : d.holder p = e.holder p) (hx : e.spot? p = none) :
    discard d p = (discard e p).map fun _ => d := by
  have hx' : d.spot? p = none := (Disk.spot?_congr hholder).trans hx
  have hbarrier : d.barrier p = e.barrier p := by rw [Disk.barrier, Disk.barrier, hholder]
  simp only [discard, (Disk.remove_of_spot_none hx).1, (Disk.remove_of_spot_none hx').1, hbarrier]
  split <;> rfl

/-- There is nothing to clear on a disk without artifacts. -/
theorem Clear.discard_eq_ok (he : a.Clear e) (hp : p ∈ a.paths) (hx : e.spot? p = some x) :
    discard e p = .ok e := by
  have hnone := he.node?_eq_none (mem_places.mpr ⟨p, hp, hx⟩)
  simp [discard, Disk.remove_of_spot_some hx, hnone]

theorem places_touchDir (a : Artifacts) (e : Disk) (l : Location) :
    a.places (e.touchDir l) = a.places e :=
  List.filterMap_congr fun p _ => Disk.spot?_touchDir e l p

theorem Clear.touchDir (he : a.Clear e) (l : Location) : a.Clear (e.touchDir l) := by
  refine ⟨fun x hx l' hpre => ?_, fun l' hl' => ?_⟩
  · rw [places_touchDir] at hx
    rw [Disk.node?_touchDir, he.bare x hx l' hpre]
    simp
  · rw [places_touchDir]
    exact he.home l' hl'

/-- The directory in which the artifacts have their places. -/
def directory (a : Artifacts) (d : Disk) : Location := ((a.places d).headD []).dropLast

/-- Something is at a place that the artifacts have on a disk without them. -/
def leftover (a : Artifacts) (e d : Disk) : Bool := (a.places e).any fun x => (d.node? x).isSome

theorem Siblings.dropLast_eq_directory (ha : a.Siblings) (hx : x ∈ a.places d) :
    x.dropLast = a.directory d := by
  cases hplaces : a.places d with
  | nil =>
    rw [hplaces] at hx
    exact absurd hx (by simp)
  | cons y ys =>
    rw [directory, hplaces]
    exact ha.dropLast_eq hx (by simp [hplaces])

/-- The failure of clearing a path, if any. -/
def failure? (d : Disk) (p : Text) : Option Failure :=
  match discard d p with
  | .error f => some f
  | .ok _ => none

/-- Whether clearing a path fails depends on the way to it only, if nothing is at its end. -/
theorem failure?_congr {e' : Disk} (he : a.Clear e) (he' : a.Clear e') (hp : p ∈ a.paths)
    (hholder : e'.holder p = e.holder p) : failure? e' p = failure? e p := by
  unfold failure?
  cases hx : e.spot? p with
  | none =>
    rw [discard_of_spot_none hholder hx]
    cases discard e p <;> rfl
  | some x =>
    have hx' : e'.spot? p = some x := (Disk.spot?_congr hholder).trans hx
    rw [he.discard_eq_ok hp hx, he'.discard_eq_ok hp hx']

/-- Clearing the binary when the assembly has been cleared. -/
theorem discard_binary (ha : a.Siblings) (he : a.Clear e)
    (hc : ∀ x ∈ a.places e, e.changeable x.dropLast = true) (hx : e.spot? a.assembly = some x)
    (h : SameBut ((a.places e).filter (· ≠ x)) e d) :
    (match discard d a.binary with
      | .error f => (d, some f)
      | .ok d' => (d', none)) =
      (if (e.spot? a.binary).any fun y => (d.node? y).isSome then e.touchDir (a.directory e) else e,
        failure? e a.binary) := by
  have hbp := a.binary_mem_paths
  have hplaces : a.places e = x :: (e.spot? a.binary).toList := by
    simp only [places, paths, List.filterMap_cons, hx]
    cases e.spot? a.binary <;> rfl
  have hsub : (a.places e).filter (· ≠ x) ⊆ a.places e := fun y hy => (List.mem_filter.mp hy).1
  unfold failure?
  cases hy : e.spot? a.binary with
  | none =>
    have hnil : (a.places e).filter (· ≠ x) = [] := by simp [hplaces, hy]
    rw [hnil] at h
    obtain rfl := h.eq_of_nil
    rw [discard_of_spot_none rfl hy]
    cases discard d a.binary <;> rfl
  | some y =>
    have hymem : y ∈ a.places e := mem_places.mpr ⟨_, hbp, hy⟩
    have hnil : ((a.places e).filter (· ≠ x)).filter (· ≠ y) = [] := by
      rw [hplaces, hy]
      by_cases hxy : y = x <;> simp [hxy]
    rw [he.discard_eq_ok hbp hy, ← ha.dropLast_eq_directory hymem]
    rcases discard_sameBut ha he hc hsub h hbp hy with ⟨hnone, hd, hd'⟩ | ⟨hsome, d', hd, hd'⟩ <;>
      rw [hnil] at hd'
    · obtain rfl := hd'.eq_of_nil
      simp [hd, hnone]
    · obtain rfl := hd'.eq_of_nil
      simp [hd, hsome]

/-- Where the assembly has no place there is nothing to clear, though clearing may fail. -/
theorem clean_of_spot_none (ha : a.Siblings) (hs : d.spot? a.assembly = none) :
    a.places d = [] ∧ (a.clean d).1 = d := by
  have hb : d.spot? a.binary = none := by
    cases hb : d.spot? a.binary with
    | none => rfl
    | some y =>
      obtain ⟨x, hx, _⟩ := ha.spot?_assembly hb
      rw [hs] at hx
      exact absurd hx (by simp)
  refine ⟨by simp [places, paths, hs, hb], ?_⟩
  unfold clean
  rw [discard_of_spot_none rfl hs]
  cases discard d a.assembly with
  | error f => rfl
  | ok _ =>
    simp only [Except.map]
    rw [discard_of_spot_none rfl hb]
    cases discard d a.binary <;> rfl

/-- Clearing leftovers gives the disk without artifacts back, with their directory touched
    if there was a leftover; and it fails only if clearing that disk fails. -/
theorem clean_sameBut (ha : a.Siblings) (he : a.Clear e)
    (hc : ∀ x ∈ a.places e, e.changeable x.dropLast = true) (h : SameBut (a.places e) e d) :
    a.clean d = (if a.leftover e d then e.touchDir (a.directory e) else e, (a.clean e).2) := by
  have hsp := a.assembly_mem_paths
  have hbp := a.binary_mem_paths
  cases hs : e.spot? a.assembly with
  | none =>
    -- Neither artifact has a place, so there is no leftover.
    obtain ⟨hnil, hclean⟩ := clean_of_spot_none ha hs
    rw [hnil] at h
    obtain rfl := h.eq_of_nil
    simp only [leftover, hnil, List.any_nil, Bool.false_eq_true, if_false]
    exact Prod.ext hclean rfl
  | some x =>
    have hxmem : x ∈ a.places e := mem_places.mpr ⟨_, hsp, hs⟩
    have hdir : x.dropLast = a.directory e := ha.dropLast_eq_directory hxmem
    have hclean : (a.clean e).2 = failure? e a.binary := by
      simp only [clean, he.discard_eq_ok hsp hs, failure?]
      cases discard e a.binary <;> rfl
    have hleft : a.leftover e d =
        ((d.node? x).isSome || (e.spot? a.binary).any fun y => (d.node? y).isSome) := by
      simp only [leftover, places, paths, List.filterMap_cons, hs]
      cases e.spot? a.binary <;> simp
    rw [hclean, hleft]
    unfold clean
    rcases discard_sameBut ha he hc (List.Subset.refl _) h hsp hs with
      ⟨hnone, hd, hd'⟩ | ⟨hsome, d', hd, hd'⟩
    · rw [hd, hnone]
      exact discard_binary ha he hc hs hd'
    · -- From here on the disk to compare with has its directory touched.
      have he' : a.Clear (e.touchDir x.dropLast) := he.touchDir x.dropLast
      have hplaces' := places_touchDir a e x.dropLast
      rw [hd, hsome]
      rw [← hplaces'] at hd'
      have hc' : ∀ y ∈ a.places (e.touchDir x.dropLast),
          (e.touchDir x.dropLast).changeable y.dropLast = true := by
        intro y hy
        rw [hplaces'] at hy
        rw [Disk.changeable_touchDir, hc y hy]
      have hbinary := discard_binary ha he' hc' ((Disk.spot?_touchDir e _ _).trans hs) hd'
      have hdir' : a.directory (e.touchDir x.dropLast) = x.dropLast := by
        rw [directory, hplaces', ← directory, hdir]
      have hway : (e.touchDir x.dropLast).holder a.binary = e.holder a.binary :=
        (Disk.holder_congr (Disk.alike_touchDir e x.dropLast).sameLayout _).symm
      rw [hdir', Disk.touchDir_touchDir, ite_self, failure?_congr he he' hbp hway] at hbinary
      rw [Bool.true_or, if_pos rfl, ← hdir]
      exact hbinary

/-! ### After clearing -/

/-- What is cleared is vacant, and clearing only takes nodes away. -/
theorem vacant_of_discard {d' : Disk} (h : discard d p = .ok d') :
    d'.Vacant p ∧ ∃ gone, Disk.Without gone d d' := by
  unfold discard at h
  split at h
  · rename_i d'' hremove
    obtain rfl := Except.ok.inj h
    obtain ⟨x, hx, rfl⟩ := Disk.remove_eq_ok hremove
    obtain ⟨dir, c, hp, _, rfl⟩ := Disk.spot?_eq_some hx
    rw [List.dropLast_concat]
    have hwithout := Disk.without_removed d (dir ++ [c]) dir (by simp)
    refine ⟨?_, _, hwithout⟩
    rcases Disk.holder_without hwithout p with heq | hmissing | ⟨⟨e, _, he⟩, _⟩
    · refine Or.inr ⟨dir ++ [c], (Disk.spot?_congr heq).trans hx, ?_⟩
      exact hwithout.empty _ (by simp)
    · exact Or.inl hmissing
    · rw [hp] at he
      exact absurd he (by simp)
  · rename_i e hremove
    split at h
    · rename_i he
      obtain rfl := Except.ok.inj h
      exact ⟨Disk.vacant_of_remove hremove he, [], rfl, fun _ _ => rfl, by simp⟩
    · simp at h

/-- Once the artifacts have been cleared, nothing is at their paths. -/
theorem lacks_of_clean (ha : a.Siblings) {d' : Disk} (h : a.clean d = (d', none)) :
    ∀ p ∈ a.paths, d'.Lacks p := by
  have hvacant : ∀ p ∈ a.paths, d'.Vacant p := by
    unfold clean at h
    split at h
    · simp at h
    · rename_i d₁ h₁
      split at h
      · simp at h
      · rename_i d₂ h₂
        obtain rfl : d₂ = d' := congrArg Prod.fst h
        obtain ⟨hs, _⟩ := vacant_of_discard h₁
        obtain ⟨hb, gone, hgone⟩ := vacant_of_discard h₂
        intro p hp
        rcases mem_paths.mp hp with rfl | rfl
        · exact hs.without hgone
        · exact hb
  intro p hp
  obtain ⟨front, hform⟩ := ha.exists_front
  obtain ⟨u, hu, rfl⟩ := hform p hp
  exact (hvacant _ hp).lacks hu

end Artifacts

end Gauntlet
