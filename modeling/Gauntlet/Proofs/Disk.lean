import Gauntlet.Disk.Directory
import Gauntlet.Proofs.SortedMap
import Gauntlet.Proofs.Path

/-! # Following paths on a changing disk

  Where a path leads depends on little of a disk: on the kinds of the nodes, on their
  modes, and on the targets of links. The key facts are

  - `walk_congr`: on disks of the same layout every path leads the same way, so writing
    to files and changing times has no effect on it;
  - `walk_without`: when nodes are taken away, the way to a directory stays as it was or
    is lost. It cannot lead elsewhere, except that a node that barred the way no longer
    does;
  - `walk_concat`: a path whose last link is not followed leads into the directory
    before its last component, and then one step further.
-/

namespace Gauntlet

theorem toOption_eq_some_iff {ε α : Type} {r : Except ε α} {a : α} :
    r.toOption = some a ↔ r = .ok a := by
  cases r <;> simp [Except.toOption]

/-! ### Nodes after an operation -/

namespace Node

/-- The node with another change time, if it is a directory. -/
def touched (t : Instant) : Node → Node
  | .dir m _ => .dir m t
  | n => n

/-- What following a path reads of a node. -/
def outline : Node → Node
  | file _ m _ => file [] m ⟨0, 0⟩
  | dir m _ => dir m ⟨0, 0⟩
  | link target => link target

theorem isDir_outline (n : Node) : n.outline.isDir = n.isDir := by
  cases n <;> rfl

theorem isFile_outline (n : Node) : n.outline.isFile = n.isFile := by
  cases n <;> rfl

theorem readable_outline (n : Node) : n.outline.readable = n.readable := by
  cases n <;> rfl

/-- Nodes of the same outline are of one kind. -/
theorem outline_cases {x y : Option Node} (h : x.map outline = y.map outline) :
    (x = none ∧ y = none) ∨
    (∃ m t t', x = some (.dir m t) ∧ y = some (.dir m t')) ∨
    (∃ target, x = some (.link target) ∧ y = some (.link target)) ∨
    (∃ a m t a' t', x = some (.file a m t) ∧ y = some (.file a' m t')) := by
  rcases x with _ | (⟨a, m, t⟩ | ⟨m, t⟩ | target) <;>
    rcases y with _ | (⟨a', m', t'⟩ | ⟨m', t'⟩ | target') <;> simp_all [outline]

end Node

namespace Disk

theorem node?_put (d : Disk) (l l' : Location) (n : Node) :
    (d.put l n).node? l' = if l' = l then some n else d.node? l' :=
  SortedMap.get?_insert d.nodes l l' n

theorem node?_drop (d : Disk) (l l' : Location) :
    (d.drop l).node? l' = if l' = l then none else d.node? l' :=
  SortedMap.get?_erase d.nodes l l'

theorem node?_touchDir (d : Disk) (l l' : Location) :
    (d.touchDir l).node? l' =
      if l' = l then (d.node? l').map (Node.touched d.now) else d.node? l' := by
  have htouch : (fun | .dir m _ => .dir m d.now | n => n : Node → Node) = Node.touched d.now := by
    funext n
    cases n <;> rfl
  rw [← htouch]
  exact SortedMap.get?_modify d.nodes l l' _

theorem names_eq_nil {d : Disk} {l : Location} (h : ∀ c, d.node? (l ++ [c]) = none) :
    d.names l = [] := by
  refine List.filterMap_eq_nil_iff.mpr ?_
  rintro ⟨l', n⟩ hmem
  obtain ⟨hpair, hbelow⟩ := List.mem_filter.mp hmem
  dsimp only
  split
  · rename_i hlen
    -- A location one longer than a prefix of it adds one component to it.
    have hpre : l <+: l' := by
      simp only [below, Bool.and_eq_true] at hbelow
      exact List.isPrefixOf_iff_prefix.mp hbelow.1
    obtain ⟨rest, rfl⟩ := hpre
    obtain ⟨c, rfl⟩ : ∃ c, rest = [c] := List.length_eq_one_iff.mp (by simpa using hlen)
    have hnode : d.node? (l ++ [c]) = some n := (SortedMap.mem_pairs_iff d.nodes _ n).mp hpair
    rw [h c] at hnode
    exact absurd hnode (by simp)
  · rfl

/-- A disk is determined by its nodes, its working directory, its clock, its mask and its
    draws. -/
theorem ext_node {d d' : Disk} (hnode : ∀ l, d.node? l = d'.node? l) (hcwd : d.cwd = d'.cwd)
    (hnow : d.now = d'.now) (hmask : d.mask = d'.mask) (hdraws : d.draws = d'.draws) : d = d' := by
  obtain ⟨nodes, cwd, now, mask, draws⟩ := d
  obtain ⟨nodes', cwd', now', mask', draws'⟩ := d'
  have hnodes : nodes = nodes' := SortedMap.ext_get hnode
  simp_all

/-! ### Layout -/

/-- Disks that differ in the contents of files and in times only. -/
structure SameLayout (d d' : Disk) : Prop where
  cwd : d.cwd = d'.cwd
  node : ∀ l, (d.node? l).map Node.outline = (d'.node? l).map Node.outline

theorem sameLayout_append (d : Disk) (l : Location) (bytes : Text) :
    SameLayout d (d.append l bytes) := by
  unfold append
  split
  · rename_i data m t hl
    refine ⟨rfl, fun l' => ?_⟩
    rw [node?_put]
    split
    · rename_i heq
      rw [heq, hl]
      rfl
    · rfl
  · exact ⟨rfl, fun _ => rfl⟩

/-- Whether a walk can go on from a location: a directory must allow searching it. From a
    directory that is gone, for which `false` stands, only `.` and `..` lead anywhere. -/
def footing (d : Disk) (l : Location) : Except Errno Bool :=
  match d.node? l with
  | some (.dir m t) => if (Node.dir m t).executable then .ok true else .error .denied
  | some _ => .error .notDirectory
  | none => .ok false

theorem footing_of_gone {d : Disk} {l : Location} (h : d.node? l = none) :
    d.footing l = .ok false := by
  simp [footing, h]

/-- A node in the way is never reported as missing. -/
theorem footing_error_ne_missing {d : Disk} {l : Location} {e : Errno}
    (h : d.footing l = .error e) : e ≠ .missing := by
  unfold footing at h
  split at h
  · split at h
    · simp at h
    · simp [← Except.error.inj h]
  · simp [← Except.error.inj h]
  · simp at h

theorem footing_congr {d d' : Disk} {l : Location}
    (h : (d.node? l).map Node.outline = (d'.node? l).map Node.outline) :
    d.footing l = d'.footing l := by
  unfold footing
  rcases Node.outline_cases h with ⟨h₁, h₂⟩ | ⟨m, t, t', h₁, h₂⟩ | ⟨target, h₁, h₂⟩ |
    ⟨a, m, t, a', t', h₁, h₂⟩
  · rw [h₁, h₂]
  · rw [h₁, h₂]
    rfl
  · rw [h₁, h₂]
  · rw [h₁, h₂]

theorem walkWith_cons (d : Disk) (follow : Bool) (onLink : Location → List Text → Except Errno Place)
    (l : Location) (c : Text) (rest : List Text) :
    d.walkWith follow onLink l (c :: rest) =
      match d.footing l with
      | .error e => .error e
      | .ok there =>
        if c = Path.here then d.walkWith follow onLink l rest
        else if c = Path.up then d.walkWith follow onLink l.dropLast rest
        else if there = false then .error .missing
        else if nameLimit < c.length then .error .nameTooLong
        else match d.node? (l ++ [c]) with
          | none => if rest = [] then .ok (.free l c) else .error .missing
          | some (.link target) =>
            if rest = [] ∧ !follow then .ok (.found (l ++ [c]))
            else onLink (if Path.isAbsolute target then [] else l) (steps target ++ rest)
          | some _ => d.walkWith follow onLink (l ++ [c]) rest := by
  rw [walkWith]
  rcases hl : d.node? l with _ | (⟨data, m, t⟩ | ⟨m, t⟩ | target)
  · simp [footing_of_gone hl]
  · simp [footing, hl]
  · cases hx : (Node.dir m t).executable with
    | false => simp [footing, hl, hx]
    | true =>
      have hok : d.footing l = .ok true := by simp [footing, hl, hx]
      simp only [hok, hx]
      rcases d.node? (l ++ [c]) with _ | (_ | _ | target) <;> simp
  · simp [footing, hl]

/-- On disks of the same layout every path leads the same way. -/
theorem walkWith_congr {d d' : Disk} (h : SameLayout d d') (follow : Bool)
    (onLink : Location → List Text → Except Errno Place) (l : Location) (cs : List Text) :
    d.walkWith follow onLink l cs = d'.walkWith follow onLink l cs := by
  induction cs generalizing l with
  | nil => rfl
  | cons c rest ih =>
    rw [walkWith_cons, walkWith_cons, footing_congr (h.node l)]
    rcases Node.outline_cases (h.node (l ++ [c])) with ⟨h₁, h₂⟩ | ⟨m, t, t', h₁, h₂⟩ |
      ⟨target, h₁, h₂⟩ | ⟨a, m, t, a', t', h₁, h₂⟩ <;> simp only [h₁, h₂, ih]

theorem walk_congr {d d' : Disk} (h : SameLayout d d') (follow : Bool) (n : Nat) (l : Location)
    (cs : List Text) : d.walk follow n l cs = d'.walk follow n l cs := by
  induction n generalizing l cs with
  | zero => exact walkWith_congr h follow _ l cs
  | succ n ih =>
    have hlink : d.walk follow n = d'.walk follow n := by
      funext l' cs'
      exact ih l' cs'
    rw [walk, walk, hlink]
    exact walkWith_congr h follow _ l cs

theorem start_congr {d d' : Disk} (h : d.cwd = d'.cwd) (p : Text) : d.start p = d'.start p := by
  simp only [start, h]

theorem place_congr {d d' : Disk} (h : SameLayout d d') (follow : Bool) (p : Text) :
    d.place follow p = d'.place follow p := by
  simp only [place, start_congr h.cwd, walk_congr h]

theorem holder_congr {d d' : Disk} (h : SameLayout d d') (p : Text) : d.holder p = d'.holder p := by
  simp only [holder, start_congr h.cwd, walk_congr h]

theorem changeable_congr {d d' : Disk} {l : Location}
    (h : (d.node? l).map Node.outline = (d'.node? l).map Node.outline) :
    d.changeable l = d'.changeable l := by
  unfold changeable
  rcases Node.outline_cases h with ⟨h₁, h₂⟩ | ⟨m, t, t', h₁, h₂⟩ | ⟨target, h₁, h₂⟩ |
    ⟨a, m, t, a', t', h₁, h₂⟩
  · rw [h₁, h₂]
  · rw [h₁, h₂]
    rfl
  · rw [h₁, h₂]
  · rw [h₁, h₂]
    rfl

/-- Something is found on both disks, or the same error on both. -/
theorem find_congr {d d' : Disk} (h : SameLayout d d') (follow : Bool) (p : Text) :
    (∃ l n n', d.find follow p = .ok (l, n) ∧ d'.find follow p = .ok (l, n') ∧
      d.node? l = some n ∧ d'.node? l = some n') ∨
    ∃ e, d.find follow p = .error e ∧ d'.find follow p = .error e := by
  unfold find
  rw [place_congr h follow p]
  split
  · exact Or.inr ⟨_, rfl, rfl⟩
  · exact Or.inr ⟨_, rfl, rfl⟩
  · rename_i l _
    rcases Node.outline_cases (h.node l) with ⟨h₁, h₂⟩ | ⟨m, t, t', h₁, h₂⟩ | ⟨target, h₁, h₂⟩ |
      ⟨a, m, t, a', t', h₁, h₂⟩ <;> simp [h₁, h₂]

/-! ### Taking nodes away -/

/-- The second disk is the first with the nodes at some locations taken away. -/
structure Without (gone : List Location) (d d' : Disk) : Prop where
  cwd : d'.cwd = d.cwd
  elsewhere : ∀ l, l ∉ gone → (d'.node? l).map Node.outline = (d.node? l).map Node.outline
  empty : ∀ l ∈ gone, d'.node? l = none

/-- Nothing is at some locations or below them, and the root is not among them. -/
def Bare (gone : List Location) (d : Disk) : Prop :=
  ∀ x ∈ gone, x ≠ [] ∧ ∀ l, x <+: l → d.node? l = none

/-- A location that is neither among some locations nor below one of them. -/
def Off (gone : List Location) (l : Location) : Prop := ∀ x ∈ gone, ¬ x <+: l

theorem Off.dropLast {gone : List Location} {l : Location} (h : Off gone l) :
    Off gone l.dropLast :=
  fun x hx hpre => h x hx (hpre.trans (List.dropLast_prefix l))

theorem Bare.off_nil {gone : List Location} {d : Disk} (h : Bare gone d) : Off gone [] :=
  fun x hx hpre => (h x hx).1 (List.prefix_nil.mp hpre)

/-- Whatever is there is off the bare locations. -/
theorem Bare.off_of_node {gone : List Location} {d : Disk} (h : Bare gone d) {l : Location}
    {n : Node} (hl : d.node? l = some n) : Off gone l := by
  intro x hx hpre
  rw [(h x hx).2 l hpre] at hl
  exact absurd hl (by simp)

/-- How the end of a walk changes when nodes are taken away: it stays as it was, or the
    way is lost. A walk that was barred may also go on, but not if it started off the
    locations that are now bare. -/
def Fades {α : Type} (gone : List Location) (d' : Disk) (l : Location)
    (before after : Except Errno α) : Prop :=
  after = before ∨ after = .error .missing ∨
    ((∃ e, e ≠ .missing ∧ before = .error e) ∧ (Bare gone d' → ¬ Off gone l))

/-- It matters only whether the walk started off the bare locations. -/
theorem Fades.from {α : Type} {gone : List Location} {d' : Disk} {l l' : Location}
    {before after : Except Errno α} (h : Fades gone d' l before after)
    (hoff : Bare gone d' → Off gone l' → Off gone l) : Fades gone d' l' before after := by
  rcases h with h | h | ⟨he, hbare⟩
  · exact Or.inl h
  · exact Or.inr (Or.inl h)
  · exact Or.inr (Or.inr ⟨he, fun hb ho => hbare hb (hoff hb ho)⟩)

/-- At a location a walk is barred on both disks, or only on the first because the node
    there has been taken away. If it is not barred, then the location is the same on both
    disks or gone on the second. -/
theorem Without.footing_cases {gone : List Location} {d d' : Disk} (h : Without gone d d')
    (l : Location) :
    (∃ e, d.footing l = .error e ∧ (d'.footing l = .error e ∨ l ∈ gone)) ∨
    ∃ there there', d.footing l = .ok there ∧ d'.footing l = .ok there' ∧
      (there' = there ∨ there' = false) := by
  by_cases hl : l ∈ gone
  · have hgone : d'.footing l = .ok false := footing_of_gone (h.empty l hl)
    cases hf : d.footing l with
    | error e => exact Or.inl ⟨e, rfl, Or.inr hl⟩
    | ok there => exact Or.inr ⟨there, false, rfl, hgone, Or.inr rfl⟩
  · have heq : d'.footing l = d.footing l := footing_congr (h.elsewhere l hl)
    cases hf : d.footing l with
    | error e => exact Or.inl ⟨e, rfl, Or.inl (heq.trans hf)⟩
    | ok there => exact Or.inr ⟨there, there, rfl, heq.trans hf, Or.inl rfl⟩

/-- One way to a directory, with the links on it resolved by two functions that agree in
    the same sense. -/
theorem walkWith_without {gone : List Location} {d d' : Disk} (h : Without gone d d')
    {onLink onLink' : Location → List Text → Except Errno Place}
    (hlink : ∀ l cs, Fades gone d' l (onLink l (cs ++ [Path.here]))
      (onLink' l (cs ++ [Path.here])))
    (l : Location) (cs : List Text) :
    Fades gone d' l (d.walkWith true onLink l (cs ++ [Path.here]))
      (d'.walkWith true onLink' l (cs ++ [Path.here])) := by
  -- A walk that is barred stays so, unless what barred it is one of the nodes taken away.
  have hbarred : ∀ {l : Location} {e : Errno} {after : Except Errno Place},
      d.footing l = .error e → l ∈ gone → Fades gone d' l (.error e) after := by
    intro l e after he hl
    refine Or.inr (Or.inr ⟨⟨e, footing_error_ne_missing he, rfl⟩, fun _ hoff => ?_⟩)
    exact hoff l hl List.prefix_rfl
  induction cs generalizing l with
  | nil =>
    rw [List.nil_append, walkWith_cons, walkWith_cons]
    rcases h.footing_cases l with ⟨e, hf, hf' | hl⟩ | ⟨there, there', hf, hf', _⟩
    · rw [hf, hf']
      exact Or.inl rfl
    · rw [hf]
      exact hbarred hf hl
    · rw [hf, hf']
      exact Or.inl (by simp [walkWith])
  | cons c cs ih =>
    have hrest : cs ++ [Path.here] ≠ [] := by simp
    rw [List.cons_append, walkWith_cons, walkWith_cons]
    rcases h.footing_cases l with ⟨e, hf, hf' | hl⟩ | ⟨there, there', hf, hf', hthere⟩
    · rw [hf, hf']
      exact Or.inl rfl
    · rw [hf]
      exact hbarred hf hl
    rw [hf, hf']
    dsimp only
    by_cases hhere : c = Path.here
    · rw [if_pos hhere, if_pos hhere]
      exact ih l
    rw [if_neg hhere, if_neg hhere]
    by_cases hup : c = Path.up
    · rw [if_pos hup, if_pos hup]
      exact (ih l.dropLast).from fun _ => Off.dropLast
    rw [if_neg hup, if_neg hup]
    -- A directory that is gone has nothing in it.
    by_cases hgone : there' = false
    · rw [if_pos hgone]
      exact Or.inr (Or.inl rfl)
    obtain rfl : there' = there := hthere.resolve_right hgone
    rw [if_neg hgone, if_neg hgone]
    by_cases hlong : nameLimit < c.length
    · rw [if_pos hlong, if_pos hlong]
      exact Or.inl rfl
    rw [if_neg hlong, if_neg hlong]
    -- The next node is looked up, and this is where the way can be lost.
    by_cases hx : l ++ [c] ∈ gone
    · rw [h.empty _ hx, if_neg hrest]
      exact Or.inr (Or.inl rfl)
    rcases Node.outline_cases (h.elsewhere _ hx) with ⟨h', h₁⟩ | ⟨m, t', t, h', h₁⟩ |
      ⟨target, h', h₁⟩ | ⟨a', m, t', a, t, h', h₁⟩ <;> rw [h', h₁] <;> dsimp only
    · exact Or.inl rfl
    · exact (ih (l ++ [c])).from fun hb _ => hb.off_of_node h'
    · have hfollow : ¬ (cs ++ [Path.here] = [] ∧ (!true) = true) := fun hc => hrest hc.1
      rw [if_neg hfollow, if_neg hfollow, ← List.append_assoc]
      refine (hlink _ (steps target ++ cs)).from fun hb ho => ?_
      split
      · exact hb.off_nil
      · exact ho
    · exact (ih (l ++ [c])).from fun hb _ => hb.off_of_node h'

/-- The way to a directory stays as it was or is lost when nodes are taken away. -/
theorem walk_without {gone : List Location} {d d' : Disk} (h : Without gone d d') (n : Nat)
    (l : Location) (cs : List Text) :
    Fades gone d' l (d.walk true n l (cs ++ [Path.here]))
      (d'.walk true n l (cs ++ [Path.here])) := by
  -- A walk that may follow `n + 1` links resolves a link by a walk that may follow `n`.
  induction n generalizing l cs with
  | zero => exact walkWith_without h (fun _ _ => Or.inl rfl) l cs
  | succ n ih => exact walkWith_without h ih l cs

/-- Where a walk starts, for a path that is not refused by its form. -/
theorem start_eq_ok {d : Disk} {p : Text} {l : Location} (h : d.start p = .ok l) :
    p.contains 0 = false ∧ p.length < pathLimit ∧ (l = [] ∨ d.cwd = some l) := by
  unfold start at h
  by_cases hzero : p.contains 0 = true
  · rw [if_pos hzero] at h
    simp at h
  rw [if_neg hzero] at h
  by_cases hempty : p = []
  · rw [if_pos hempty] at h
    simp at h
  rw [if_neg hempty] at h
  by_cases hlong : pathLimit ≤ p.length
  · rw [if_pos hlong] at h
    simp at h
  rw [if_neg hlong] at h
  refine ⟨by simpa using hzero, Nat.lt_of_not_le hlong, ?_⟩
  split at h
  · exact Or.inl (Except.ok.inj h).symm
  · split at h
    · rename_i l' hcwd
      exact Or.inr (by rw [hcwd, Except.ok.inj h])
    · simp at h

/-- The directory that holds the last component of a path is the same as before, or it
    cannot be reached any more. -/
theorem holder_without {gone : List Location} {d d' : Disk} (h : Without gone d d') (p : Text) :
    d'.holder p = d.holder p ∨ d'.holder p = .error .missing ∨
      ((∃ e, e ≠ .missing ∧ d.holder p = .error e) ∧
        ¬ (Bare gone d' ∧ ∀ l ∈ d.cwd, Off gone l)) := by
  unfold holder
  dsimp only
  rw [start_congr h.cwd]
  cases hs : d.start p with
  | error e => exact Or.inl rfl
  | ok l =>
    dsimp only
    cases ((Path.pieces p).filter (· ≠ [])).getLast? with
    | none => exact Or.inl rfl
    | some c =>
      dsimp only
      rcases walk_without h linkLimit l ((Path.pieces p).filter (· ≠ [])).dropLast with
        hw | hw | ⟨⟨e, he, hw⟩, hbare⟩
      · rw [hw]
        exact Or.inl rfl
      · rw [hw]
        exact Or.inr (Or.inl rfl)
      · rw [hw]
        refine Or.inr (Or.inr ⟨⟨e, he, rfl⟩, fun ⟨hb, hcwd⟩ => hbare hb ?_⟩)
        rcases (start_eq_ok hs).2.2 with rfl | hl
        · exact hb.off_nil
        · exact hcwd l hl

/-! ### The last component -/

/-- Where a walk ends that takes one more step, without following a link. -/
def thence (d : Disk) (c : Text) : Except Errno Place → Except Errno Place
  | .error e => .error e
  | .ok (.free _ _) => .error .missing
  | .ok (.found dir) =>
    if (d.node? dir).isSome = false then .error .missing
    else if nameLimit < c.length then .error .nameTooLong
    else match d.node? (dir ++ [c]) with
      | none => .ok (.free dir c)
      | some _ => .ok (.found (dir ++ [c]))

theorem footing_eq_ok {d : Disk} {l : Location} {there : Bool} (h : d.footing l = .ok there) :
    (d.node? l).isSome = there := by
  unfold footing at h
  split at h
  · rename_i hl
    split at h
    · rw [hl, ← Except.ok.inj h]
      rfl
    · simp at h
  · simp at h
  · rename_i hl
    rw [hl, ← Except.ok.inj h]
    rfl

/-- A path whose last link is not followed leads to the directory before its last
    component, and then one step further. -/
theorem walkWith_concat (d : Disk) {c : Text} (hc : c ≠ Path.here ∧ c ≠ Path.up)
    {onLink onLink' : Location → List Text → Except Errno Place}
    (hlink : ∀ l cs, onLink l (cs ++ [c]) = d.thence c (onLink' l (cs ++ [Path.here])))
    (l : Location) (cs : List Text) :
    d.walkWith false onLink l (cs ++ [c]) =
      d.thence c (d.walkWith true onLink' l (cs ++ [Path.here])) := by
  induction cs generalizing l with
  | nil =>
    rw [List.nil_append, List.nil_append, walkWith_cons, walkWith_cons]
    cases hf : d.footing l with
    | error e => rfl
    | ok there =>
      have hthere := footing_eq_ok hf
      rcases hx : d.node? (l ++ [c]) with _ | (⟨data, m, t⟩ | ⟨m, t⟩ | target) <;>
        simp [hc, walkWith, thence, hthere, hx]
  | cons c' cs ih =>
    rw [List.cons_append, List.cons_append, walkWith_cons, walkWith_cons]
    cases d.footing l with
    | error e => rfl
    | ok there =>
      dsimp only
      -- Up to the last component the two walks take the same turns.
      split
      · exact ih l
      split
      · exact ih l.dropLast
      split
      · rfl
      split
      · rfl
      rcases d.node? (l ++ [c']) with _ | (⟨data, m, t⟩ | ⟨m, t⟩ | target)
      · simp [thence]
      · exact ih (l ++ [c'])
      · exact ih (l ++ [c'])
      · have hne : ∀ x : Text, cs ++ [x] ≠ [] := by simp
        simp only [hne, false_and, if_false, ← List.append_assoc]
        exact hlink _ (steps target ++ cs)

theorem walk_concat (d : Disk) {c : Text} (hc : c ≠ Path.here ∧ c ≠ Path.up) (n : Nat)
    (l : Location) (cs : List Text) :
    d.walk false n l (cs ++ [c]) = d.thence c (d.walk true n l (cs ++ [Path.here])) := by
  induction n generalizing l cs with
  | zero => exact walkWith_concat d hc (fun _ _ => rfl) l cs
  | succ n ih => exact walkWith_concat d hc ih l cs

/-! ### Vacant paths -/

/-- Nothing is at a path, not even a link. -/
def Lacks (d : Disk) (p : Text) : Prop := d.find false p = .error .missing

instance (d : Disk) (p : Text) : Decidable (d.Lacks p) :=
  inferInstanceAs (Decidable (d.find false p = .error .missing))

/-- The location at which a path can have a node of its own, if the way to it is there. -/
def spot? (d : Disk) (p : Text) : Option Location :=
  match d.holder p with
  | .ok (dir, some c) => if irremovable? (some c) = none then some (dir ++ [c]) else none
  | _ => none

theorem spot?_congr {d d' : Disk} {p : Text} (h : d.holder p = d'.holder p) :
    d.spot? p = d'.spot? p := by
  rw [spot?, spot?, h]

theorem spot?_eq_some {d : Disk} {p : Text} {x : Location} (h : d.spot? p = some x) :
    ∃ dir c, d.holder p = .ok (dir, some c) ∧ irremovable? (some c) = none ∧ x = dir ++ [c] := by
  unfold spot? at h
  split at h
  · rename_i dir c hp
    split at h
    · rename_i hc
      exact ⟨dir, c, hp, hc, (Option.some.inj h).symm⟩
    · simp at h
  · simp at h

/-- There is no way to the path, or nothing at its end. -/
def Vacant (d : Disk) (p : Text) : Prop :=
  d.holder p = .error .missing ∨ ∃ x, d.spot? p = some x ∧ d.node? x = none

/-- What is vacant stays so when nodes are taken away. -/
theorem Vacant.without {gone : List Location} {d d' : Disk} {p : Text} (hv : d.Vacant p)
    (h : Without gone d d') : d'.Vacant p := by
  rcases holder_without h p with heq | hmissing | ⟨⟨e, he, hp⟩, _⟩
  · rcases hv with hv | ⟨x, hx, hnone⟩
    · exact Or.inl (heq.trans hv)
    · refine Or.inr ⟨x, (spot?_congr heq).trans hx, ?_⟩
      by_cases hmem : x ∈ gone
      · exact h.empty x hmem
      · simpa [hnone] using h.elsewhere x hmem
  · exact Or.inl hmissing
  · -- The way was barred, so the path was not vacant.
    rcases hv with hv | ⟨x, hx, _⟩
    · rw [hp] at hv
      exact absurd (Except.error.inj hv) he
    · obtain ⟨dir, c, hp', _⟩ := spot?_eq_some hx
      rw [hp] at hp'
      exact absurd hp' (by simp)

theorem irremovable?_eq_none {c : Text} (h : irremovable? (some c) = none) :
    c ≠ Path.here ∧ c ≠ Path.up ∧ ¬ nameLimit < c.length := by
  unfold irremovable? at h
  dsimp only at h
  split at h
  · simp at h
  split at h
  · simp at h
  split at h
  · simp at h
  · exact ⟨‹_›, ‹_›, ‹_›⟩

theorem Vacant.lacks {d : Disk} {front u : Text} (hu : Path.Suffix u)
    (hv : d.Vacant (front ++ u)) : d.Lacks (front ++ u) := by
  obtain ⟨ps, last, hpieces⟩ := Path.pieces_append front
  have hsteps : steps (front ++ u) = ps ++ [last ++ u] := by
    unfold steps
    rw [hpieces u hu, if_neg fun hp => hu.getLast?_ne_slash front hp.2]
  have hc := (hu.ordinary last).2
  simp only [Vacant, spot?, holder, hpieces u hu, List.getLast?_concat, List.dropLast_concat] at hv
  unfold Lacks find place
  rw [hsteps]
  cases hs : d.start (front ++ u) with
  | error e => simpa [hs] using hv
  | ok l =>
    simp only [hs] at hv ⊢
    rw [walk_concat d hc]
    cases hw : d.walk true linkLimit l (ps ++ [Path.here]) with
    | error e =>
      rw [hw] at hv
      simpa [thence] using hv
    | ok place =>
      rw [hw] at hv
      cases place with
      | free dir name => simp [thence]
      | found dir =>
        simp only [reduceCtorEq, false_or] at hv
        obtain ⟨x, hx, hnone⟩ := hv
        split at hx
        · obtain rfl := Option.some.inj hx
          have hlong := (irremovable?_eq_none ‹_›).2.2
          unfold thence
          dsimp only
          by_cases hdir : (d.node? dir).isSome = false
          · rw [if_pos hdir]
          · rw [if_neg hdir, if_neg hlong, hnone]
        · simp at hx

/-- What removing a node leaves. -/
theorem without_removed (d : Disk) (x dir : Location) (hdir : dir ≠ x) :
    Without [x] d ((d.drop x).touchDir dir) where
  cwd := rfl
  elsewhere := by
    intro l hl
    have hne : l ≠ x := by simpa using hl
    rw [node?_touchDir, node?_drop, if_neg hne]
    split
    · cases d.node? l with
      | none => rfl
      | some n => cases n <;> rfl
    · rfl
  empty := by
    intro l hl
    obtain rfl : l = x := by simpa using hl
    rw [node?_touchDir, if_neg hdir.symm, node?_drop, if_pos rfl]

/-- Why a path has no location of its own, if it has none. -/
def barrier (d : Disk) (p : Text) : Errno :=
  match d.holder p with
  | .error e => e
  | .ok (_, last) => (irremovable? last).getD .missing

theorem irremovable?_ne_missing (last : Option Text) : irremovable? last ≠ some .missing := by
  unfold irremovable?
  split
  · simp
  · split
    · simp
    · split
      · simp
      · split <;> simp

theorem remove_of_spot_none {d : Disk} {p : Text} (h : d.spot? p = none) :
    d.remove p = .error ⟨"remove", p, d.barrier p⟩ ∧
      (d.barrier p = .missing → d.holder p = .error .missing) := by
  unfold spot? at h
  unfold remove barrier
  dsimp only
  cases hp : d.holder p with
  | error e => exact ⟨rfl, fun he => congrArg Except.error he⟩
  | ok r =>
    obtain ⟨dir, last⟩ := r
    dsimp only
    cases hlast : irremovable? last with
    | some e =>
      refine ⟨rfl, fun he => ?_⟩
      rw [Option.getD_some] at he
      exact absurd (hlast.trans (congrArg some he)) (irremovable?_ne_missing last)
    | none =>
      cases last with
      | none => simp [irremovable?] at hlast
      | some c => simp [hp, hlast] at h

theorem remove_of_spot_some {d : Disk} {p : Text} {x : Location} (h : d.spot? p = some x) :
    d.remove p =
      match d.node? x with
      | none => .error ⟨"remove", p, .missing⟩
      | some n =>
        if !n.isDir && p.getLast? = some Path.slash then .error ⟨"remove", p, .notDirectory⟩
        else if !d.changeable x.dropLast then .error ⟨"remove", p, .denied⟩
        else if n.isDir && !(d.names x).isEmpty then .error ⟨"remove", p, .notEmpty⟩
        else .ok ((d.drop x).touchDir x.dropLast) := by
  obtain ⟨dir, c, hp, hc, rfl⟩ := spot?_eq_some h
  unfold remove
  simp only [hp, hc, Option.toList_some, List.dropLast_concat]
  rfl

/-- A path with a location of its own is missing, or cannot be removed, or is removed
    there. -/
theorem remove_cases {d : Disk} {p : Text} {x : Location} (h : d.spot? p = some x) :
    (d.node? x = none ∧ d.remove p = .error ⟨"remove", p, .missing⟩) ∨
    (∃ e, e ≠ .missing ∧ d.remove p = .error ⟨"remove", p, e⟩) ∨
    d.remove p = .ok ((d.drop x).touchDir x.dropLast) := by
  rw [remove_of_spot_some h]
  cases d.node? x with
  | none => exact Or.inl ⟨rfl, rfl⟩
  | some n =>
    refine Or.inr ?_
    dsimp only
    by_cases h₁ : (!n.isDir && p.getLast? = some Path.slash) = true
    · rw [if_pos h₁]
      exact Or.inl ⟨.notDirectory, by simp, rfl⟩
    rw [if_neg h₁]
    by_cases h₂ : (!d.changeable x.dropLast) = true
    · rw [if_pos h₂]
      exact Or.inl ⟨.denied, by simp, rfl⟩
    rw [if_neg h₂]
    by_cases h₃ : (n.isDir && !(d.names x).isEmpty) = true
    · rw [if_pos h₃]
      exact Or.inl ⟨.notEmpty, by simp, rfl⟩
    · rw [if_neg h₃]
      exact Or.inr rfl

theorem remove_eq_ok {d d' : Disk} {p : Text} (h : d.remove p = .ok d') :
    ∃ x, d.spot? p = some x ∧ d' = (d.drop x).touchDir x.dropLast := by
  cases hx : d.spot? p with
  | none =>
    rw [(remove_of_spot_none hx).1] at h
    simp at h
  | some x =>
    refine ⟨x, rfl, ?_⟩
    rcases remove_cases hx with ⟨_, hr⟩ | ⟨e, _, hr⟩ | hr <;> rw [hr] at h
    · simp at h
    · simp at h
    · exact (Except.ok.inj h).symm

/-- A path that is missing when it is to be removed is vacant. -/
theorem vacant_of_remove {d : Disk} {p : Text} {e : OsError} (h : d.remove p = .error e)
    (he : e.errno = .missing) : d.Vacant p := by
  cases hx : d.spot? p with
  | none =>
    obtain ⟨hremove, hbarrier⟩ := remove_of_spot_none hx
    rw [hremove] at h
    obtain rfl := Except.error.inj h
    exact Or.inl (hbarrier he)
  | some x =>
    refine Or.inr ⟨x, hx, ?_⟩
    rcases remove_cases hx with ⟨hnone, _⟩ | ⟨e', he', hr⟩ | hr
    · exact hnone
    · rw [hr] at h
      obtain rfl := Except.error.inj h
      exact absurd he he'
    · rw [hr] at h
      simp at h

end Disk

end Gauntlet
