import Gauntlet.Proofs.Unpack
import Gauntlet.Proofs.Ways

/-! # Growing disks

  Where directories and links only ever appear and never go, a path that leads to something
  leads to the same location ever after (`walk_grown`, `find_grown`). This is how a path that
  was followed before a file was written is followed after it.

  - `Goes`: what a walk that leads somewhere does at its first component.
  - `Enters`: the front of a path leads to a directory, through links or not. The rest of the
    path goes on from there (`walk_append`), so that only links beyond it matter.
  - `Roomier`: one disk is as another off some spots, but for the times of directories and
    for new directories.
-/

namespace Gauntlet.Disk

open Gauntlet.Path (Plain Ordinary)

/-! ### Ways up -/

/-- What is there is below something. -/
theorem Sound.isSome_dropLast {d : Disk} (h : d.Sound) {l : Location}
    (hl : (d.node? l).isSome = true) : (d.node? l.dropLast).isSome = true := by
  cases l using List.reverseRecOn with
  | nil => exact hl
  | append_singleton l c =>
    obtain ⟨n, hn⟩ := Option.isSome_iff_exists.mp hl
    obtain ⟨m, t, hdir⟩ := h l c n hn
    rw [List.dropLast_concat, hdir]
    rfl

/-- Where something is, there is a root. -/
theorem Sound.isSome_root {d : Disk} (h : d.Sound) {l : Location}
    (hl : (d.node? l).isSome = true) : (d.node? []).isSome = true := by
  by_cases hnil : l = []
  · exact hnil ▸ hl
  · obtain ⟨n, hn⟩ := Option.isSome_iff_exists.mp hl
    obtain ⟨m, t, hdir⟩ := h.dir_of_below (x := []) hnil hn
    rw [hdir]
    rfl

theorem Sound.vacant_below {d : Disk} (h : d.Sound) {l : Location} (hl : d.node? l = none)
    (rest : Location) : d.node? (l ++ rest) = none := by
  by_cases hrest : rest = []
  · rw [hrest, List.append_nil]
    exact hl
  cases hn : d.node? (l ++ rest) with
  | none => rfl
  | some n =>
    obtain ⟨m, t, hdir⟩ := h.dir_of_below hrest hn
    rw [hl] at hdir
    simp at hdir

/-! ### Single steps -/

/-- A walk looks a component up at a location. -/
structure LooksUp (d : Disk) (l : Location) (c : Text) : Prop where
  ne_here : c ≠ Path.here
  ne_up : c ≠ Path.up
  footing : d.footing l = .ok true
  short : c.length ≤ nameLimit

section Steps

variable {d : Disk} {follow : Bool} {onLink : Location → List Text → Except Errno Place}
  {l : Location} {c : Text} {rest : List Text}

theorem walkWith_here {there : Bool} (hl : d.footing l = .ok there) :
    d.walkWith follow onLink l (Path.here :: rest) = d.walkWith follow onLink l rest := by
  rw [walkWith_cons, hl]
  simp

theorem walkWith_up {there : Bool} (hl : d.footing l = .ok there) :
    d.walkWith follow onLink l (Path.up :: rest) = d.walkWith follow onLink l.dropLast rest := by
  have hne : Path.up ≠ Path.here := by decide
  rw [walkWith_cons, hl]
  simp [hne]

/-- At a component that it looks up, a walk depends on what is there. -/
theorem LooksUp.walkWith_eq (h : LooksUp d l c) :
    d.walkWith follow onLink l (c :: rest) =
      match d.node? (l ++ [c]) with
      | none => if rest = [] then .ok (.free l c) else .error .missing
      | some (.link target) =>
        if rest = [] ∧ !follow then .ok (.found (l ++ [c]))
        else onLink (if Path.isAbsolute target then [] else l) (steps target ++ rest)
      | some _ => d.walkWith follow onLink (l ++ [c]) rest := by
  have hshort : ¬ nameLimit < c.length := Nat.not_lt.mpr h.short
  rcases hnode : d.node? (l ++ [c]) with _ | (⟨data, m, t⟩ | ⟨m, t⟩ | target) <;>
    simp [walkWith_cons, h.footing, h.ne_here, h.ne_up, hshort, hnode]

/-- A walk goes down to what is not a link. -/
theorem LooksUp.walkWith_down (h : LooksUp d l c) {n : Node} (hnode : d.node? (l ++ [c]) = some n)
    (hlink : ∀ target, n ≠ .link target) :
    d.walkWith follow onLink l (c :: rest) = d.walkWith follow onLink (l ++ [c]) rest := by
  rw [h.walkWith_eq, hnode]
  cases n with
  | dir _ _ => rfl
  | file _ _ _ => rfl
  | link target => exact absurd rfl (hlink target)

/-- A walk follows a link, unless it is the last component and is not to be followed. -/
theorem LooksUp.walkWith_link (h : LooksUp d l c) {target : Text}
    (hnode : d.node? (l ++ [c]) = some (.link target)) (hfollow : rest ≠ [] ∨ follow = true) :
    d.walkWith follow onLink l (c :: rest) =
      onLink (if Path.isAbsolute target then [] else l) (steps target ++ rest) := by
  have hlast : ¬ (rest = [] ∧ (!follow) = true) := by
    rintro ⟨hnil, hno⟩
    rcases hfollow with hrest | hyes
    · exact hrest hnil
    · simp [hyes] at hno
  rw [h.walkWith_eq, hnode]
  dsimp only
  rw [if_neg hlast]

/-- How a walk that leads somewhere goes on at its first component. -/
inductive Goes (d : Disk) (follow : Bool) (onLink : Location → List Text → Except Errno Place)
    (l : Location) (rest : List Text) (r : Place) : Text → Prop where
  | here {there : Bool} (hl : d.footing l = .ok there)
      (h : d.walkWith follow onLink l rest = .ok r) : Goes d follow onLink l rest r Path.here
  | up {there : Bool} (hl : d.footing l = .ok there)
      (h : d.walkWith follow onLink l.dropLast rest = .ok r) :
      Goes d follow onLink l rest r Path.up
  | down {c : Text} {n : Node} (hc : LooksUp d l c) (hnode : d.node? (l ++ [c]) = some n)
      (hlink : ∀ target, n ≠ .link target)
      (h : d.walkWith follow onLink (l ++ [c]) rest = .ok r) : Goes d follow onLink l rest r c
  | link {c target : Text} (hc : LooksUp d l c) (hnode : d.node? (l ++ [c]) = some (.link target))
      (hfollow : rest ≠ [] ∨ follow = true)
      (h : onLink (if Path.isAbsolute target then [] else l) (steps target ++ rest) = .ok r) :
      Goes d follow onLink l rest r c
  | last {c target : Text} (hc : LooksUp d l c) (hnode : d.node? (l ++ [c]) = some (.link target))
      (hrest : rest = []) (hfollow : follow = false) (hr : r = .found (l ++ [c])) :
      Goes d follow onLink l rest r c
  | free {c : Text} (hc : LooksUp d l c) (hnode : d.node? (l ++ [c]) = none) (hrest : rest = [])
      (hr : r = .free l c) : Goes d follow onLink l rest r c

theorem goes_of_walkWith {r : Place} (h : d.walkWith follow onLink l (c :: rest) = .ok r) :
    Goes d follow onLink l rest r c := by
  cases hl : d.footing l with
  | error e => simp [walkWith_cons, hl] at h
  | ok there =>
    by_cases hhere : c = Path.here
    · subst hhere
      rw [walkWith_here hl] at h
      exact .here hl h
    by_cases hup : c = Path.up
    · subst hup
      rw [walkWith_up hl] at h
      exact .up hl h
    -- Else the component is looked up, or there would be an error.
    have hc : LooksUp d l c := by
      rw [walkWith_cons, hl] at h
      simp only [hhere, hup, if_false] at h
      cases there with
      | false => simp at h
      | true =>
        by_cases hlong : nameLimit < c.length
        · simp [hlong] at h
        · exact ⟨hhere, hup, hl, by omega⟩
    rcases hnode : d.node? (l ++ [c]) with _ | (⟨data, m, t⟩ | ⟨m, t⟩ | target)
    · rw [hc.walkWith_eq, hnode] at h
      by_cases hrest : rest = []
      · exact .free hc hnode hrest (by simpa [hrest, eq_comm] using h)
      · simp [hrest] at h
    · exact .down hc hnode (by simp) (by rwa [hc.walkWith_down hnode (by simp)] at h)
    · exact .down hc hnode (by simp) (by rwa [hc.walkWith_down hnode (by simp)] at h)
    · by_cases hfollow : rest ≠ [] ∨ follow = true
      · exact .link hc hnode hfollow (by rwa [hc.walkWith_link hnode hfollow] at h)
      · obtain ⟨hrest, hno⟩ : rest = [] ∧ follow = false := by simpa using hfollow
        rw [hc.walkWith_eq, hnode] at h
        exact .last hc hnode hrest hno (by simpa [hrest, hno, eq_comm] using h)

end Steps

/-! ### Growth -/

/-- What may become of a node: a free location may be taken, a directory keeps its mode, a
    link keeps its target, and a file stays a file. -/
inductive Grown : Option Node → Option Node → Prop where
  | vacant (x : Option Node) : Grown none x
  | dir (m : Nat) (t t' : Instant) : Grown (some (.dir m t)) (some (.dir m t'))
  | link (target : Text) : Grown (some (.link target)) (some (.link target))
  | file (a : Text) (m : Nat) (t : Instant) (a' : Text) (m' : Nat) (t' : Instant) :
      Grown (some (.file a m t)) (some (.file a' m' t'))

theorem Grown.refl (x : Option Node) : Grown x x := by
  rcases x with _ | (⟨a, m, t⟩ | ⟨m, t⟩ | target)
  · exact .vacant none
  · exact .file a m t a m t
  · exact .dir m t t
  · exact .link target

theorem Grown.trans {x y z : Option Node} (h : Grown x y) (h' : Grown y z) : Grown x z := by
  cases h with
  | vacant _ => exact .vacant z
  | dir m t _ => cases h' with | dir _ _ t' => exact .dir m t t'
  | link target => cases h' with | link _ => exact .link target
  | file a m t _ _ _ => cases h' with | file _ _ _ a' m' t' => exact .file a m t a' m' t'

theorem Grown.isSome {x y : Option Node} (h : Grown x y) (hx : x.isSome = true) :
    y.isSome = true := by
  cases h with
  | vacant _ => simp at hx
  | dir _ _ _ => rfl
  | link _ => rfl
  | file _ _ _ _ _ _ => rfl

theorem SameNode.grown {free : Prop} {x y : Option Node} (h : SameNode free x y) : Grown x y := by
  rcases h with rfl | ⟨_, m, t, t', rfl, rfl⟩
  · exact Grown.refl x
  · exact .dir m t t'

/-- A disk on which nothing has gone. -/
structure Grows (d d' : Disk) : Prop where
  cwd : d.cwd = d'.cwd
  node : ∀ l, Grown (d.node? l) (d'.node? l)

namespace Grows

variable {d d' d'' : Disk}

theorem refl (d : Disk) : Grows d d := ⟨rfl, fun l => Grown.refl (d.node? l)⟩

theorem trans (h : Grows d d') (h' : Grows d' d'') : Grows d d'' :=
  ⟨h.cwd.trans h'.cwd, fun l => (h.node l).trans (h'.node l)⟩

theorem dir (h : Grows d d') {l : Location} {m : Nat} {t : Instant}
    (hl : d.node? l = some (.dir m t)) : ∃ t', d'.node? l = some (.dir m t') := by
  have hnode := h.node l
  rw [hl] at hnode
  generalize hl' : d'.node? l = x at hnode
  cases hnode with
  | dir _ _ t' => exact ⟨t', rfl⟩

theorem footing (h : Grows d d') {l : Location} (hl : d.footing l = .ok true) :
    d'.footing l = .ok true := by
  obtain ⟨m, t, hdir⟩ := dir_of_footing hl
  obtain ⟨t', hdir'⟩ := h.dir hdir
  rw [← hl]
  exact (footing_congr (by rw [hdir, hdir']; rfl)).symm

theorem looksUp (h : Grows d d') {l : Location} {c : Text} (hc : LooksUp d l c) : LooksUp d' l c :=
  ⟨hc.ne_here, hc.ne_up, h.footing hc.footing, hc.short⟩

theorem link (h : Grows d d') {l : Location} {target : Text}
    (hl : d.node? l = some (.link target)) : d'.node? l = some (.link target) := by
  have hnode := h.node l
  rw [hl] at hnode
  generalize d'.node? l = x at hnode ⊢
  cases hnode with
  | link _ => rfl

theorem not_link (h : Grows d d') {l : Location} {n : Node} (hl : d.node? l = some n)
    (hlink : ∀ target, n ≠ .link target) :
    ∃ n', d'.node? l = some n' ∧ ∀ target, n' ≠ .link target := by
  have hnode := h.node l
  rw [hl] at hnode
  generalize d'.node? l = x at hnode ⊢
  cases hnode with
  | dir m t t' => exact ⟨_, rfl, by simp⟩
  | file _ _ _ _ _ _ => exact ⟨_, rfl, by simp⟩
  | link target => exact absurd rfl (hlink target)

end Grows

/-- A place that is no longer free, and that no link has taken. -/
def Taken (d : Disk) : Place → Prop
  | .found _ => True
  | .free dir c => ∃ n, d.node? (dir ++ [c]) = some n ∧ ∀ target, n ≠ .link target

theorem taken_found (d : Disk) (x : Location) : d.Taken (.found x) := trivial

/-- From a location that is there, a walk that leads somewhere leads there after any growth, to
    what was found or to what has taken the free place. -/
theorem walkWith_grown {d d' : Disk} (hsound : d.Sound) (hgrows : Grows d d') {follow : Bool}
    {onLink onLink' : Location → List Text → Except Errno Place} {r : Place}
    (htaken : d'.Taken r)
    (hlink : ∀ l cs, (d.node? l).isSome = true → onLink l cs = .ok r →
      onLink' l cs = .ok (.found r.location))
    (l : Location) (cs : List Text) (hl : (d.node? l).isSome = true)
    (h : d.walkWith follow onLink l cs = .ok r) :
    d'.walkWith follow onLink' l cs = .ok (.found r.location) := by
  induction cs generalizing l with
  | nil =>
    obtain rfl : .found l = r := Except.ok.inj h
    rfl
  | cons c rest ih =>
    cases goes_of_walkWith h with
    | here hfooting h' =>
      rw [footing_eq_ok hfooting] at hl
      rw [walkWith_here (hgrows.footing (hl ▸ hfooting))]
      exact ih l (footing_eq_ok hfooting ▸ hl) h'
    | up hfooting h' =>
      have hup := hsound.isSome_dropLast hl
      rw [footing_eq_ok hfooting] at hl
      rw [walkWith_up (hgrows.footing (hl ▸ hfooting))]
      exact ih l.dropLast hup h'
    | down hc hnode hnolink h' =>
      obtain ⟨n', hnode', hnolink'⟩ := hgrows.not_link hnode hnolink
      rw [(hgrows.looksUp hc).walkWith_down hnode' hnolink']
      exact ih (l ++ [c]) (by simp [hnode]) h'
    | link hc hnode hfollow h' =>
      rw [(hgrows.looksUp hc).walkWith_link (hgrows.link hnode) hfollow]
      refine hlink _ _ ?_ h'
      split
      · exact hsound.isSome_root hl
      · exact hl
    | last hc hnode hrest hfollow hr =>
      rw [(hgrows.looksUp hc).walkWith_eq, hgrows.link hnode]
      simp [hrest, hfollow, hr, Place.location]
    | free hc hnode hrest hr =>
      subst hr
      obtain ⟨n', hnode', hnolink'⟩ := htaken
      rw [(hgrows.looksUp hc).walkWith_down hnode' hnolink', hrest]
      rfl

theorem walk_grown {d d' : Disk} (hsound : d.Sound) (hgrows : Grows d d') {follow : Bool}
    {r : Place} (htaken : d'.Taken r) (n : Nat) (l : Location) (cs : List Text)
    (hl : (d.node? l).isSome = true) (h : d.walk follow n l cs = .ok r) :
    d'.walk follow n l cs = .ok (.found r.location) := by
  induction n generalizing l cs with
  | zero => exact walkWith_grown hsound hgrows htaken (by simp) l cs hl h
  | succ n ih => exact walkWith_grown hsound hgrows htaken ih l cs hl h

/-- The start of a path is there: an absolute path starts from the root, any other from the
    working directory. -/
def Starts (d : Disk) (p : Text) : Prop :=
  Path.isAbsolute p = true ∨ ∀ l, d.cwd = some l → (d.node? l).isSome = true

theorem Starts.grown {d d' : Disk} {p : Text} (h : d.Starts p) (hgrows : Grows d d') :
    d'.Starts p := by
  rcases h with habsolute | hthere
  · exact Or.inl habsolute
  · exact Or.inr fun l hl => (hgrows.node l).isSome (hthere l (hgrows.cwd ▸ hl))

/-- A path leads to the same location after any growth. -/
theorem place_grown {d d' : Disk} (hsound : d.Sound) (hgrows : Grows d d') {follow : Bool}
    {p : Text} {r : Place} (htaken : d'.Taken r) (hroot : (d.node? []).isSome = true)
    (hstart : d.Starts p) (h : d.place follow p = .ok r) : d'.place follow p = .ok (.found r.location) := by
  unfold place at h ⊢
  rw [← start_congr hgrows.cwd]
  cases hl : d.start p with
  | error e => simp [hl] at h
  | ok l =>
    rw [hl] at h
    refine walk_grown hsound hgrows htaken linkLimit l (steps p) ?_ h
    rcases (start_eq_ok hl).2.2 with rfl | hcwd
    · exact hroot
    · rcases hstart with habsolute | hthere
      · have hnil : l = [] := by
          unfold start at hl
          split_ifs at hl
          exact (Except.ok.inj hl).symm
        exact hnil ▸ hroot
      · exact hthere l hcwd

theorem find_eq_ok {d : Disk} {follow : Bool} {p : Text} {x : Location} {n : Node} :
    d.find follow p = .ok (x, n) ↔ d.place follow p = .ok (.found x) ∧ d.node? x = some n := by
  unfold find
  rcases d.place follow p with e | (l | ⟨dir, name⟩)
  · simp
  · dsimp only
    cases hl : d.node? l with
    | none =>
      simp only [reduceCtorEq, Except.ok.injEq, Place.found.injEq, false_iff]
      rintro ⟨rfl, hx⟩
      simp [hl] at hx
    | some n' =>
      simp only [Except.ok.injEq, Prod.mk.injEq, Place.found.injEq]
      constructor
      · rintro ⟨rfl, rfl⟩
        exact ⟨rfl, hl⟩
      · rintro ⟨rfl, hx⟩
        exact ⟨rfl, Option.some.inj (hl.symm.trans hx)⟩
  · simp

/-- A path that finds something finds what there is at the same location after any growth. -/
theorem find_grown {d d' : Disk} (hsound : d.Sound) (hgrows : Grows d d') {follow : Bool}
    {p : Text} {x : Location} {n : Node} (hstart : d.Starts p)
    (h : d.find follow p = .ok (x, n)) :
    ∃ n', d'.find follow p = .ok (x, n') ∧ Grown (some n) (some n') := by
  obtain ⟨hplace, hx⟩ := find_eq_ok.mp h
  obtain ⟨n', hx'⟩ := Option.isSome_iff_exists.mp ((hgrows.node x).isSome (by simp [hx]))
  refine ⟨n', find_eq_ok.mpr ⟨?_, hx'⟩, by simpa [hx, hx'] using hgrows.node x⟩
  -- The root is there since something else is.
  have hroot : (d.node? []).isSome = true := hsound.isSome_root (l := x) (by simp [hx])
  exact place_grown hsound hgrows (taken_found d' x) hroot hstart hplace

/-! ### Entering a directory -/

/-- Components lead from the root to a directory that is there and can be searched. -/
structure Enters (d : Disk) (front : List Text) (base : Location) : Prop where
  leads : d.walk true linkLimit [] (front ++ [Path.here]) = .ok (.found base)
  isSome : (d.node? base).isSome = true

theorem Enters.grown {d d' : Disk} {front : List Text} {base : Location} (h : Enters d front base)
    (hsound : d.Sound) (hgrows : Grows d d') : Enters d' front base :=
  ⟨walk_grown hsound hgrows (taken_found d' base) linkLimit [] _ (hsound.isSome_root h.isSome) h.leads,
    (hgrows.node base).isSome h.isSome⟩

theorem Enters.unique {d : Disk} {front : List Text} {base base' : Location}
    (h : Enters d front base) (h' : Enters d front base') : base = base' := by
  have := h.leads.symm.trans h'.leads
  simpa using this

/-- A walk that has come to a directory by the front of its components goes on from there. What
    holds of the way from there, and of each way on from a link before it, holds of the walk. -/
theorem walkWith_append {d : Disk} {follow : Bool}
    {onLink onLink' : Location → List Text → Except Errno Place} {base : Location}
    {rest : List Text} {P : Except Errno Place → Prop} (hrest : rest ≠ [] ∨ follow = true)
    (hbase : P (d.walkWith follow onLink base rest))
    (hlink : ∀ l cs, onLink' l (cs ++ [Path.here]) = .ok (.found base) → P (onLink l (cs ++ rest)))
    (l : Location) (front : List Text)
    (h : d.walkWith true onLink' l (front ++ [Path.here]) = .ok (.found base)) :
    P (d.walkWith follow onLink l (front ++ rest)) := by
  induction front generalizing l with
  | nil =>
    rw [List.nil_append, walkWith_cons] at h
    cases hfooting : d.footing l with
    | error e => simp [hfooting] at h
    | ok there =>
      obtain rfl : l = base := by simpa [hfooting, walkWith] using h
      exact hbase
  | cons c front ih =>
    rw [List.cons_append] at h ⊢
    cases goes_of_walkWith h with
    | here hl h' =>
      rw [walkWith_here hl]
      exact ih l h'
    | up hl h' =>
      rw [walkWith_up hl]
      exact ih l.dropLast h'
    | down hc hnode hnolink h' =>
      rw [hc.walkWith_down hnode hnolink]
      exact ih (l ++ [c]) h'
    | link hc hnode _ h' =>
      -- The link has to be followed by both walks.
      have hfollow : front ++ rest ≠ [] ∨ follow = true :=
        hrest.imp_left fun hne hnil => hne (List.append_eq_nil_iff.mp hnil).2
      rw [← List.append_assoc] at h'
      rw [hc.walkWith_link hnode hfollow, ← List.append_assoc]
      exact hlink _ _ h'
    | last _ _ hrest _ _ => simp at hrest
    | free _ _ hrest _ => simp at hrest

/-- Beyond the directory a walk may follow the links that are left. -/
theorem walk_append_le {d : Disk} {follow : Bool} {base : Location} {rest : List Text}
    (hrest : rest ≠ [] ∨ follow = true) (n : Nat) (l : Location) (front : List Text)
    (h : d.walk true n l (front ++ [Path.here]) = .ok (.found base)) :
    ∃ m ≤ n, d.walk follow n l (front ++ rest) = d.walk follow m base rest := by
  induction n generalizing l front with
  | zero =>
    exact walkWith_append (P := fun r => ∃ m ≤ 0, r = d.walk follow m base rest) hrest
      ⟨0, le_rfl, rfl⟩ (by simp) l front h
  | succ n ih =>
    refine walkWith_append (P := fun r => ∃ m ≤ n + 1, r = d.walk follow m base rest) hrest
      ⟨n + 1, le_rfl, rfl⟩ (fun l cs hfound => ?_) l front h
    obtain ⟨m, hm, hwalk⟩ := ih l cs hfound
    exact ⟨m, by omega, hwalk⟩

theorem walk_append {d : Disk} {follow : Bool} {base : Location} {rest : List Text}
    (hrest : rest ≠ [] ∨ follow = true) (n : Nat) (l : Location) (front : List Text)
    (h : d.walk true n l (front ++ [Path.here]) = .ok (.found base)) :
    ∃ onLink, d.walk follow n l (front ++ rest) = d.walkWith follow onLink base rest := by
  obtain ⟨m, _, hwalk⟩ := walk_append_le hrest n l front h
  cases m with
  | zero => exact ⟨_, hwalk⟩
  | succ m => exact ⟨_, hwalk⟩

theorem Enters.footing {d : Disk} {front : List Text} {base : Location} (h : Enters d front base) :
    d.footing base = .ok true := by
  obtain ⟨onLink, hwalk⟩ := walk_append (Or.inr rfl) linkLimit [] front h.leads
  rw [h.leads, walkWith_cons] at hwalk
  cases hfooting : d.footing base with
  | error e => simp [hfooting] at hwalk
  | ok there => rw [← footing_eq_ok hfooting, h.isSome]

theorem Enters.dir {d : Disk} {front : List Text} {base : Location} (h : Enters d front base) :
    ∃ m t, d.node? base = some (.dir m t) := dir_of_footing h.footing

/-- Where a path leads beyond a directory, if there are no links. -/
theorem Enters.place {d : Disk} {follow : Bool} {front rest : List Text} {base : Location}
    (h : Enters d front base) (hplain : Plain (front ++ rest)) (hrest : rest ≠ [] ∨ follow = true)
    (hway : ∀ k, k <+: rest → k ≠ [] → (k ≠ rest ∨ follow = true) →
      ∀ target, d.node? (base ++ k) ≠ some (.link target)) :
    Leads d base rest (d.place follow (Path.absolute (front ++ rest))) := by
  unfold Disk.place
  cases hstart : d.start (Path.absolute (front ++ rest)) with
  | error e => exact .nowhere e
  | ok l =>
    obtain rfl := start_absolute hstart
    rw [steps_absolute hplain]
    obtain ⟨onLink, hwalk⟩ := walk_append hrest linkLimit [] front h.leads
    dsimp only
    rw [hwalk]
    exact walkWith_plain d follow onLink (hplain.sublist (List.sublist_append_right front rest)) hway

theorem Enters.place_eq {d : Disk} {front : List Text} {base : Location}
    (h : Enters d front base) (hplain : Plain front)
    (hstart : d.start (Path.absolute front) = .ok []) :
    d.place true (Path.absolute front) = .ok (.found base) := by
  obtain ⟨onLink, hwalk⟩ := walk_append (Or.inr rfl) linkLimit [] front h.leads
  rw [List.append_nil] at hwalk
  unfold Disk.place
  rw [hstart, steps_absolute hplain]
  dsimp only
  rw [hwalk, walkWith]

theorem Enters.eq_of_find {d : Disk} {front : List Text} {base x : Location} {n : Node}
    (h : Enters d front base) (hplain : Plain front)
    (hfind : d.find true (Path.absolute front) = .ok (x, n)) : x = base := by
  have hplace := (find_eq_ok.mp hfind).1
  have hstart : d.start (Path.absolute front) = .ok [] := by
    unfold Disk.place at hplace
    cases hs : d.start (Path.absolute front) with
    | error e => simp [hs] at hplace
    | ok l => rw [start_absolute hs]
  rw [h.place_eq hplain hstart] at hplace
  simpa [eq_comm] using hplace

/-- Where a path beyond a directory leads is where the components say. -/
theorem Leads.location {d : Disk} {l : Location} {cs : List Text} {r : Place}
    (h : Leads d l cs (.ok r)) : r.location = l ++ cs := by
  cases h with
  | found _ => rfl
  | free hcs _ _ _ =>
    rw [hcs, Place.location]
    simp

theorem Leads.found_iff {d : Disk} {l x : Location} {cs : List Text} {r : Except Errno Place}
    (h : Leads d l cs r) (hr : r = .ok (.found x)) : x = l ++ cs := by
  subst hr
  exact h.location

/-- Where something has been before the growth, components without links led to it if they do
    after it. -/
theorem walkWith_shrunk {d d' : Disk} (hsound : d.Sound) (hgrows : Grows d d')
    {onLink onLink' : Location → List Text → Except Errno Place} {l : Location} {cs : List Text}
    (hcs : Plain cs) (hend : (d.node? (l ++ cs)).isSome = true)
    (hway : ∀ k, k <+: cs → k ≠ [] → ∀ target, d.node? (l ++ k) ≠ some (.link target))
    (h : d'.walkWith true onLink' l cs = .ok (.found (l ++ cs))) :
    d.walkWith true onLink l cs = .ok (.found (l ++ cs)) := by
  induction cs generalizing l with
  | nil => exact h
  | cons c rest ih =>
    have hc := hcs c List.mem_cons_self
    have hnext : ∀ k, l ++ [c] ++ k = l ++ c :: k := by simp
    obtain ⟨n, hn⟩ := Option.isSome_iff_exists.mp hend
    obtain ⟨m, t, hdir⟩ := hsound.dir_of_below (by simp) hn
    obtain ⟨t', hdir'⟩ := hgrows.dir hdir
    have hfooting : d.footing l = d'.footing l := footing_congr (by rw [hdir, hdir']; rfl)
    have hthere : (d.node? (l ++ [c])).isSome = true := by
      by_cases hrest : rest = []
      · rw [hrest] at hend
        exact hend
      · rw [← hnext] at hn
        obtain ⟨m, t, hdir⟩ := hsound.dir_of_below hrest hn
        simp [hdir]
    obtain ⟨n', hbelow'⟩ := Option.isSome_iff_exists.mp hthere
    have hnolink : ∀ target, n' ≠ .link target := by
      rintro target rfl
      exact hway [c] (List.cons_prefix_cons.mpr ⟨rfl, List.nil_prefix⟩) (by simp) target hbelow'
    -- The rest leads on from the location below.
    have hbelow : d'.walkWith true onLink' (l ++ [c]) rest = .ok (.found (l ++ c :: rest)) →
        d.walkWith true onLink (l ++ [c]) rest = .ok (.found (l ++ c :: rest)) := by
      intro h'
      rw [← hnext rest] at h' hend ⊢
      refine ih (fun c' hc' => hcs c' (List.mem_cons_of_mem c hc')) hend ?_ h'
      intro k hk _ target
      rw [hnext]
      exact hway (c :: k) (List.cons_prefix_cons.mpr ⟨rfl, hk⟩) (by simp) target
    cases goes_of_walkWith h with
    | here _ _ => exact absurd rfl hc.ne_here
    | up _ _ => exact absurd rfl hc.ne_up
    | down hlooks _ _ h' =>
      have hlooks' : LooksUp d l c :=
        ⟨hc.ne_here, hc.ne_up, hfooting.trans hlooks.footing, hlooks.short⟩
      rw [hlooks'.walkWith_down hbelow' hnolink]
      exact hbelow h'
    | link _ hnode _ _ =>
      obtain ⟨n'', hnode', hnolink'⟩ := hgrows.not_link hbelow' hnolink
      rw [hnode] at hnode'
      exact absurd (Option.some.inj hnode').symm (hnolink' _)
    | last _ _ _ hfollow _ => simp at hfollow
    | free _ _ _ hr => simp at hr

/-- A walk that goes on beyond the front of its components has come to a directory by them. -/
theorem walkWith_front {d : Disk} {follow : Bool}
    {onLink onLink' : Location → List Text → Except Errno Place} {c : Text} {rest : List Text}
    {r : Place}
    (hlink : ∀ l cs, onLink l (cs ++ c :: rest) = .ok r →
      ∃ x, onLink' l (cs ++ [Path.here]) = .ok (.found x))
    (l : Location) (front : List Text)
    (h : d.walkWith follow onLink l (front ++ c :: rest) = .ok r) :
    ∃ x, d.walkWith true onLink' l (front ++ [Path.here]) = .ok (.found x) := by
  induction front generalizing l with
  | nil =>
    rw [List.nil_append, walkWith_cons] at h ⊢
    cases hfooting : d.footing l with
    | error e => simp [hfooting] at h
    | ok there => exact ⟨l, by simp [walkWith]⟩
  | cons c' front ih =>
    rw [List.cons_append] at h ⊢
    cases goes_of_walkWith h with
    | here hl h' =>
      rw [walkWith_here hl]
      exact ih l h'
    | up hl h' =>
      rw [walkWith_up hl]
      exact ih l.dropLast h'
    | down hc hnode hnolink h' =>
      rw [hc.walkWith_down hnode hnolink]
      exact ih (l ++ [c']) h'
    | link hc hnode _ h' =>
      rw [← List.append_assoc] at h'
      rw [hc.walkWith_link hnode (Or.inr rfl), ← List.append_assoc]
      exact hlink _ _ h'
    | last _ _ hrest _ _ => simp at hrest
    | free _ _ hrest _ => simp at hrest

theorem walk_front {d : Disk} {follow : Bool} {c : Text} {rest : List Text} {r : Place} (n : Nat)
    (l : Location) (front : List Text) (h : d.walk follow n l (front ++ c :: rest) = .ok r) :
    ∃ x, d.walk true n l (front ++ [Path.here]) = .ok (.found x) := by
  induction n generalizing l front with
  | zero => exact walkWith_front (by simp) l front h
  | succ n ih => exact walkWith_front ih l front h

/-- The front of a path that leads into a directory does so, too. -/
theorem Enters.front {d : Disk} {front more : List Text} {base : Location}
    (h : Enters d (front ++ more) base) (hmore : Plain more) : ∃ x, Enters d front x := by
  cases more with
  | nil => exact ⟨base, by simpa using h⟩
  | cons c rest =>
    have hc := hmore c List.mem_cons_self
    have hleads := h.leads
    rw [List.append_assoc, List.cons_append] at hleads
    obtain ⟨x, hx⟩ := walk_front linkLimit [] front hleads
    refine ⟨x, hx, ?_⟩
    -- A directory that is gone would not lead to the next component.
    obtain ⟨onLink, hwalk⟩ := walk_append (Or.inr rfl) linkLimit [] front hx
    rw [hleads, walkWith_cons] at hwalk
    cases hfooting : d.footing x with
    | error e => simp [hfooting] at hwalk
    | ok there =>
      rw [footing_eq_ok hfooting]
      cases there with
      | true => rfl
      | false => simp [hfooting, hc.ne_here, hc.ne_up] at hwalk

/-- A path that is not refused by its form has a front that is not. -/
theorem start_front {d : Disk} {front more : List Text}
    (h : d.start (Path.absolute (front ++ more)) = .ok []) :
    d.start (Path.absolute front) = .ok [] := by
  obtain ⟨hzero, hlength, _⟩ := start_eq_ok h
  obtain ⟨u, hu⟩ := Path.absolute_prefix front more
  rw [← hu] at hzero hlength
  rw [List.length_append] at hlength
  have hzero' : (Path.absolute front).contains 0 = false := by
    simp only [List.contains_eq_mem, decide_eq_false_iff_not, List.mem_append, not_or] at hzero ⊢
    exact hzero.1
  have hne : Path.absolute front ≠ [] := by simp [Path.absolute]
  unfold start
  rw [if_neg (by rw [hzero']; simp), if_neg hne, if_neg (by omega),
    if_pos (Path.isAbsolute_absolute front)]

/-! ### The directory of a plain name -/

/-- A plain name is looked up in the directory that its front leads to. -/
theorem place_absolute {d : Disk} {front : List Text} {c : Text} (hplain : Plain (front ++ [c])) :
    (∃ e, d.holder (Path.absolute (front ++ [c])) = .error e ∧
      d.place false (Path.absolute (front ++ [c])) = .error e) ∨
    ∃ dir, d.walk true linkLimit [] (front ++ [Path.here]) = .ok (.found dir) ∧
      d.start (Path.absolute (front ++ [c])) = .ok [] ∧
      d.holder (Path.absolute (front ++ [c])) = .ok (dir, some c) ∧
      d.place false (Path.absolute (front ++ [c])) = d.thence c (.ok (.found dir)) := by
  have hc := hplain c (by simp)
  unfold holder place
  rw [Path.filter_pieces_absolute hplain, steps_absolute hplain]
  dsimp only
  rw [List.getLast?_concat, List.dropLast_concat]
  cases hstart : d.start (Path.absolute (front ++ [c])) with
  | error e => exact Or.inl ⟨e, rfl, rfl⟩
  | ok l =>
    obtain rfl := start_absolute hstart
    dsimp only
    rw [walk_concat d ⟨hc.ne_here, hc.ne_up⟩]
    rcases d.walk true linkLimit [] (front ++ [Path.here]) with e | (dir | ⟨dir, name⟩)
    · exact Or.inl ⟨e, rfl, rfl⟩
    · exact Or.inr ⟨dir, rfl, rfl, rfl, rfl⟩
    · exact Or.inl ⟨.missing, rfl, rfl⟩

/-- A name has a location of its own in a directory that its front leads to, whether
    something is there or not. -/
structure Located (d : Disk) (front : List Text) (c : Text) (dir : Location) : Prop where
  enters : Enters d front dir
  start : d.start (Path.absolute (front ++ [c])) = .ok []
  short : c.length ≤ nameLimit

theorem Located.grown {d d' : Disk} {front : List Text} {c : Text} {dir : Location}
    (h : Located d front c dir) (hsound : d.Sound) (hgrows : Grows d d') : Located d' front c dir :=
  ⟨h.enters.grown hsound hgrows, (start_congr hgrows.cwd _).symm.trans h.start, h.short⟩

section Located

variable {d : Disk} {front : List Text} {c : Text} {dir : Location}

theorem Located.holder (h : Located d front c dir) (hplain : Plain (front ++ [c])) :
    d.holder (Path.absolute (front ++ [c])) = .ok (dir, some c) := by
  unfold Disk.holder
  rw [Path.filter_pieces_absolute hplain, h.start]
  simp [h.enters.leads]

theorem Located.spot? (h : Located d front c dir) (hplain : Plain (front ++ [c])) :
    d.spot? (Path.absolute (front ++ [c])) = some (dir ++ [c]) := by
  have hc := hplain c (by simp)
  have hremovable : irremovable? (some c) = none := by
    simp [irremovable?, hc.ne_here, hc.ne_up, h.short]
  simp [Disk.spot?, h.holder hplain, hremovable]

/-- What a plain name leads to is at the location of its own. -/
theorem Located.place (h : Located d front c dir) (hplain : Plain (front ++ [c])) :
    d.place false (Path.absolute (front ++ [c])) =
      match d.node? (dir ++ [c]) with
      | none => .ok (.free dir c)
      | some _ => .ok (.found (dir ++ [c])) := by
  rcases d.place_absolute hplain with ⟨e, herror, _⟩ | ⟨dir', hwalk, _, _, hthence⟩
  · rw [h.holder hplain] at herror
    simp at herror
  · obtain rfl : dir = dir' := by simpa using h.enters.leads.symm.trans hwalk
    rw [hthence]
    cases hnode : d.node? (dir ++ [c]) with
    | none => simp [thence, h.enters.isSome, Nat.not_lt.mpr h.short, hnode]
    | some n => simp [thence, h.enters.isSome, Nat.not_lt.mpr h.short, hnode]

/-- Only a name with a location of its own leads anywhere. -/
theorem located_of_place {r : Place} (hplain : Plain (front ++ [c]))
    (h : d.place false (Path.absolute (front ++ [c])) = .ok r) :
    ∃ dir, Located d front c dir ∧ r.location = dir ++ [c] := by
  rcases d.place_absolute hplain with ⟨e, _, herror⟩ | ⟨dir, hwalk, hstart, _, hthence⟩
  · simp [herror] at h
  · rw [hthence] at h
    unfold thence at h
    dsimp only at h
    split_ifs at h with hdir hlong
    have hsome : (d.node? dir).isSome = true := by simpa [Option.isSome_iff_ne_none] using hdir
    refine ⟨dir, ⟨⟨hwalk, hsome⟩, hstart, Nat.le_of_not_lt hlong⟩, ?_⟩
    split at h <;> rw [← Except.ok.inj h, Place.location]

/-- What a plain name finds if a link at its end is not followed. -/
theorem find_absolute_concat {x : Location} {n : Node} (hplain : Plain (front ++ [c])) :
    d.find false (Path.absolute (front ++ [c])) = .ok (x, n) ↔
      ∃ dir, Located d front c dir ∧ x = dir ++ [c] ∧ d.node? x = some n := by
  rw [find_eq_ok]
  constructor
  · rintro ⟨hplace, hx⟩
    obtain ⟨dir, hlocated, hlocation⟩ := located_of_place hplain hplace
    exact ⟨dir, hlocated, hlocation, hx⟩
  · rintro ⟨dir, hlocated, rfl, hx⟩
    refine ⟨?_, hx⟩
    rw [hlocated.place hplain, hx]

end Located

/-- A plain name that finds something else than a link finds it also if links are followed. -/
theorem find_follow {d : Disk} {p : Text} {x : Location} {n : Node}
    (h : d.find false p = .ok (x, n)) (hlink : ∀ target, n ≠ .link target) :
    d.find true p = .ok (x, n) := by
  obtain ⟨hplace, hx⟩ := find_eq_ok.mp h
  refine find_eq_ok.mpr ⟨?_, hx⟩
  rw [← hplace]
  refine place_follow fun y hy target hy' => ?_
  obtain rfl : x = y := by simpa using hplace.symm.trans hy
  rw [hx] at hy'
  exact hlink target (Option.some.inj hy')

/-! ### New directories -/

/-- Disks that are the same off some spots, but for the times of directories and for new
    directories on the second. -/
structure Roomier (spots : Set Location) (d d' : Disk) : Prop where
  cwd : d.cwd = d'.cwd
  now : d.now = d'.now
  mask : d.mask = d'.mask
  node : ∀ l, l ∉ spots → SameNode True (d.node? l) (d'.node? l) ∨
    (d.node? l = none ∧ ∃ m t, d'.node? l = some (.dir m t))

namespace Roomier

variable {spots spots' : Set Location} {d d' d'' : Disk}

theorem refl (d : Disk) : Roomier spots d d := ⟨rfl, rfl, rfl, fun _ _ => Or.inl (Or.inl rfl)⟩

theorem of_alikeOff (h : AlikeOff spots d d') : Roomier spots d d' :=
  ⟨h.cwd, h.now, h.mask, fun l hl => Or.inl (h.node l hl)⟩

theorem mono (h : Roomier spots d d') (hs : spots ⊆ spots') : Roomier spots' d d' :=
  ⟨h.cwd, h.now, h.mask, fun l hl => h.node l fun hmem => hl (hs hmem)⟩

theorem trans (h : Roomier spots d d') (h' : Roomier spots d' d'') : Roomier spots d d'' := by
  refine ⟨h.cwd.trans h'.cwd, h.now.trans h'.now, h.mask.trans h'.mask, fun l hl => ?_⟩
  rcases h.node l hl with hsame | ⟨hnone, m, t, hdir⟩
  · rcases h'.node l hl with hsame' | ⟨hnone, hdir⟩
    · exact Or.inl (hsame.trans hsame')
    · refine Or.inr ⟨?_, hdir⟩
      cases hx : d.node? l with
      | none => rfl
      | some n =>
        obtain ⟨n', hn'⟩ := hsame.symm.some hx
        rw [hnone] at hn'
        simp at hn'
  · rcases h'.node l hl with hsame' | ⟨hnone', _, _⟩
    · obtain ⟨t', hdir'⟩ := hsame'.dir hdir
      exact Or.inr ⟨hnone, m, t', hdir'⟩
    · rw [hdir] at hnone'
      simp at hnone'

theorem node_iff (h : Roomier spots d d') {l : Location} (hl : l ∉ spots) {n : Node}
    (hn : n.isDir = false) : d'.node? l = some n ↔ d.node? l = some n := by
  rcases h.node l hl with heq | ⟨hnone, m, t, hdir⟩
  · rcases heq with heq | ⟨_, m, t, t', hx, hy⟩
    · rw [heq]
    · rw [hx, hy]
      cases n with
      | dir _ _ => simp [Node.isDir] at hn
      | file _ _ _ => simp
      | link _ => simp
  · rw [hnone, hdir]
    cases n with
    | dir _ _ => simp [Node.isDir] at hn
    | file _ _ _ => simp
    | link _ => simp

theorem grown (h : Roomier spots d d') {l : Location} (hl : l ∉ spots) :
    Grown (d.node? l) (d'.node? l) := by
  rcases h.node l hl with hsame | ⟨hnone, _⟩
  · exact hsame.grown
  · rw [hnone]
    exact .vacant _

/-- Where nothing else has changed, the disk has grown. -/
theorem grows (h : Roomier ∅ d d') : Grows d d' := ⟨h.cwd, fun l => h.grown (by simp)⟩

end Roomier

end Gauntlet.Disk
