import Gauntlet.Proofs.Artifacts
import Mathlib.Data.Set.Basic

/-! # Disks that are alike elsewhere

  What an operation does to a disk is mostly said by what it leaves alone. `AlikeOff` relates
  disks that are the same off some spots, but for the change times of directories: making or
  removing a file changes the time of the directory that holds it, and no operation here
  depends on that. `AlikeBeyond` also says which directories these are.
-/

namespace Gauntlet.Disk

/-- Disks that are the same off some spots, but for the change times of directories. -/
structure AlikeOff (spots : Set Location) (d d' : Disk) : Prop where
  cwd : d.cwd = d'.cwd
  now : d.now = d'.now
  mask : d.mask = d'.mask
  node : ∀ l, l ∉ spots → SameNode True (d.node? l) (d'.node? l)

theorem node?_created (d : Disk) (dir : Location) (name : Text) (n : Node) :
    ((d.put (dir ++ [name]) n).touchDir dir).node? (dir ++ [name]) = some n := by
  rw [node?_touchDir, if_neg (by simp), node?_put, if_pos rfl]

namespace AlikeOff

variable {spots spots' : Set Location} {d d' d'' : Disk}

theorem refl (d : Disk) : AlikeOff spots d d := ⟨rfl, rfl, rfl, fun _ _ => Or.inl rfl⟩

theorem symm (h : AlikeOff spots d d') : AlikeOff spots d' d :=
  ⟨h.cwd.symm, h.now.symm, h.mask.symm, fun l hl => (h.node l hl).symm⟩

theorem trans (h : AlikeOff spots d d') (h' : AlikeOff spots d' d'') : AlikeOff spots d d'' :=
  ⟨h.cwd.trans h'.cwd, h.now.trans h'.now, h.mask.trans h'.mask,
    fun l hl => (h.node l hl).trans (h'.node l hl)⟩

theorem mono (h : AlikeOff spots d d') (hs : spots ⊆ spots') : AlikeOff spots' d d' :=
  ⟨h.cwd, h.now, h.mask, fun l hl => h.node l fun hmem => hl (hs hmem)⟩

/-! ### Changes that keep it -/

theorem touchDir (h : AlikeOff spots d d') (l : Location) : AlikeOff spots d (d'.touchDir l) := by
  refine h.trans ⟨rfl, rfl, rfl, fun l' _ => ?_⟩
  rcases (alike_touchDir d' l).node l' with heq | ⟨_, hdirs⟩
  · exact Or.inl heq
  · exact Or.inr ⟨trivial, hdirs⟩

theorem put (h : AlikeOff spots d d') {x : Location} (hx : x ∈ spots) (n : Node) :
    AlikeOff spots d (d'.put x n) := by
  refine h.trans ⟨rfl, rfl, rfl, fun l hl => Or.inl ?_⟩
  have hne : l ≠ x := fun heq => hl (heq ▸ hx)
  rw [node?_put, if_neg hne]

theorem drop (h : AlikeOff spots d d') {x : Location} (hx : x ∈ spots) :
    AlikeOff spots d (d'.drop x) := by
  refine h.trans ⟨rfl, rfl, rfl, fun l hl => Or.inl ?_⟩
  have hne : l ≠ x := fun heq => hl (heq ▸ hx)
  rw [node?_drop, if_neg hne]

theorem created (d : Disk) (dir : Location) (name : Text) (n : Node) :
    AlikeOff {dir ++ [name]} d ((d.put (dir ++ [name]) n).touchDir dir) :=
  ((AlikeOff.refl d).put (Set.mem_singleton _) n).touchDir dir

/-- A spot at which the disks agree after all is none. -/
theorem without (h : AlikeOff spots d d') {x : Location}
    (hx : SameNode True (d.node? x) (d'.node? x)) : AlikeOff (spots \ {x}) d d' := by
  refine ⟨h.cwd, h.now, h.mask, fun l hl => ?_⟩
  by_cases heq : l = x
  · exact heq ▸ hx
  · exact h.node l fun hmem => hl ⟨hmem, heq⟩

theorem footing (h : AlikeOff spots d d') {l : Location} (hl : l ∉ spots) :
    d.footing l = d'.footing l :=
  footing_congr (h.node l hl).outline

theorem changeable (h : AlikeOff spots d d') {l : Location} (hl : l ∉ spots) :
    d.changeable l = d'.changeable l :=
  changeable_congr (h.node l hl).outline

end AlikeOff

/-! ### Disks that are the same beyond an area -/

/-- Disks that are the same beyond an area, but for the change times of some directories. -/
structure AlikeBeyond (area times : Set Location) (d d' : Disk) : Prop where
  cwd : d.cwd = d'.cwd
  now : d.now = d'.now
  mask : d.mask = d'.mask
  node : ∀ l, l ∉ area → SameNode (l ∈ times) (d.node? l) (d'.node? l)

namespace AlikeBeyond

variable {area area' times times' : Set Location} {d d' d'' : Disk}

theorem refl (d : Disk) : AlikeBeyond area times d d := ⟨rfl, rfl, rfl, fun _ _ => Or.inl rfl⟩

theorem symm (h : AlikeBeyond area times d d') : AlikeBeyond area times d' d :=
  ⟨h.cwd.symm, h.now.symm, h.mask.symm, fun l hl => (h.node l hl).symm⟩

theorem trans (h : AlikeBeyond area times d d') (h' : AlikeBeyond area times d' d'') :
    AlikeBeyond area times d d'' :=
  ⟨h.cwd.trans h'.cwd, h.now.trans h'.now, h.mask.trans h'.mask,
    fun l hl => (h.node l hl).trans (h'.node l hl)⟩

theorem mono (h : AlikeBeyond area times d d') (harea : area ⊆ area')
    (htimes : times ⊆ area' ∪ times') : AlikeBeyond area' times' d d' := by
  refine ⟨h.cwd, h.now, h.mask, fun l hl => ?_⟩
  rcases h.node l fun hmem => hl (harea hmem) with heq | ⟨hfree, hdirs⟩
  · exact Or.inl heq
  · exact Or.inr ⟨(htimes hfree).resolve_left hl, hdirs⟩

theorem alikeOff (h : AlikeBeyond area times d d') : AlikeOff area d d' := by
  refine ⟨h.cwd, h.now, h.mask, fun l hl => ?_⟩
  rcases h.node l hl with heq | ⟨_, hdirs⟩
  · exact Or.inl heq
  · exact Or.inr ⟨trivial, hdirs⟩

/-- A node is the same if it is not one of the directories. -/
theorem node_eq (h : AlikeBeyond area times d d') {l : Location} (hl : l ∉ area)
    (htime : l ∉ times) : d.node? l = d'.node? l := by
  rcases h.node l hl with heq | ⟨hfree, _⟩
  · exact heq
  · exact absurd hfree htime

theorem put (h : AlikeBeyond area times d d') {x : Location} (hx : x ∈ area) (n : Node) :
    AlikeBeyond area times d (d'.put x n) := by
  refine h.trans ⟨rfl, rfl, rfl, fun l hl => Or.inl ?_⟩
  have hne : l ≠ x := fun heq => hl (heq ▸ hx)
  rw [node?_put, if_neg hne]

theorem drop (h : AlikeBeyond area times d d') {x : Location} (hx : x ∈ area) :
    AlikeBeyond area times d (d'.drop x) := by
  refine h.trans ⟨rfl, rfl, rfl, fun l hl => Or.inl ?_⟩
  have hne : l ≠ x := fun heq => hl (heq ▸ hx)
  rw [node?_drop, if_neg hne]

theorem put_both (h : AlikeBeyond area times d d') (x : Location) (n : Node) :
    AlikeBeyond area times (d.put x n) (d'.put x n) := by
  refine ⟨h.cwd, h.now, h.mask, fun l hl => ?_⟩
  rw [node?_put, node?_put]
  split
  · exact Or.inl rfl
  · exact h.node l hl

theorem touchDir (h : AlikeBeyond area times d d') {x : Location} (hx : x ∈ times) :
    AlikeBeyond area times d (d'.touchDir x) := by
  refine h.trans ⟨rfl, rfl, rfl, fun l _ => ?_⟩
  by_cases heq : l = x
  · subst heq
    rcases (alike_touchDir d' l).node l with hnode | ⟨_, hdirs⟩
    · exact Or.inl hnode
    · exact Or.inr ⟨hx, hdirs⟩
  · exact Or.inl (by rw [node?_touchDir, if_neg heq])

theorem created (d : Disk) (dir : Location) (name : Text) (n : Node) :
    AlikeBeyond {dir ++ [name]} {dir} d ((d.put (dir ++ [name]) n).touchDir dir) :=
  ((AlikeBeyond.refl d).put (Set.mem_singleton _) n).touchDir (Set.mem_singleton _)

theorem append (h : AlikeBeyond area times d d') {x : Location} (hx : x ∈ area) (bytes : Text) :
    AlikeBeyond area times d (d'.append x bytes) := by
  unfold Disk.append
  split
  · exact h.put hx _
  · exact h

end AlikeBeyond

end Gauntlet.Disk
