import Gauntlet.Proofs.Elsewhere

/-! # What following a path looks at

  A walk looks at the nodes on its way, and at nothing else. `visits` lists their locations,
  so disks that agree at them lead the same way (`walk_eq_of_visits`): what is done at other
  locations does not matter to the path.

  - `way` is what a path looks at, and `approach` what it looks at before its last component.
  - Whether the end of a path is followed matters only if there is a link
    (`place_follow`).
-/

namespace Gauntlet.Disk

/-! ### Visits -/

/-- The locations that a walk over components looks at; `onLink` lists those beyond a symbolic
    link that is followed. -/
def visitsWith (d : Disk) (follow : Bool) (onLink : Location → List Text → List Location) :
    Location → List Text → List Location
  | l, [] => [l]
  | l, c :: rest =>
    l ::
      if c = Path.here then visitsWith d follow onLink l rest
      else if c = Path.up then visitsWith d follow onLink l.dropLast rest
      else (l ++ [c]) ::
        match d.node? (l ++ [c]) with
        | none => []
        | some (.link target) =>
          if rest = [] ∧ !follow then []
          else onLink (if Path.isAbsolute target then [] else l) (steps target ++ rest)
        | some _ => visitsWith d follow onLink (l ++ [c]) rest

/-- The locations that a walk through at most a number of links looks at. -/
def visits (d : Disk) (follow : Bool) : (links : Nat) → Location → List Text → List Location
  | 0 => visitsWith d follow fun _ _ => []
  | n + 1 => visitsWith d follow (visits d follow n)

/-- The locations that following a path looks at. -/
def way (d : Disk) (follow : Bool) (p : Text) : List Location :=
  match d.start p with
  | .error _ => []
  | .ok l => d.visits follow linkLimit l (steps p)

/-- The locations that are looked at on the way to the directory of a path. -/
def approach (d : Disk) (p : Text) : List Location :=
  match d.start p with
  | .error _ => []
  | .ok l =>
    d.visits true linkLimit l (((Path.pieces p).filter (· ≠ [])).dropLast ++ [Path.here])

/-- The nodes at a location are of the same outline on two disks. -/
def AgreeAt (d d' : Disk) (l : Location) : Prop :=
  (d.node? l).map Node.outline = (d'.node? l).map Node.outline

theorem mem_visitsWith_self (d : Disk) (follow : Bool)
    (onLink : Location → List Text → List Location) (l : Location) (cs : List Text) :
    l ∈ d.visitsWith follow onLink l cs := by
  cases cs <;> simp [visitsWith]

/-- Disks that agree where a walk looks lead it the same way. -/
theorem walkWith_eq_of_visits {d d' : Disk} {follow : Bool}
    {onLink onLink' : Location → List Text → Except Errno Place}
    {onLinkVisits : Location → List Text → List Location}
    (hlink : ∀ l cs, (∀ x ∈ onLinkVisits l cs, AgreeAt d d' x) → onLink l cs = onLink' l cs)
    (l : Location) (cs : List Text)
    (h : ∀ x ∈ d.visitsWith follow onLinkVisits l cs, AgreeAt d d' x) :
    d.walkWith follow onLink l cs = d'.walkWith follow onLink' l cs := by
  induction cs generalizing l with
  | nil => rfl
  | cons c rest ih =>
    rw [walkWith_cons, walkWith_cons,
      footing_congr (h l (mem_visitsWith_self d follow onLinkVisits l (c :: rest)))]
    cases d'.footing l with
    | error e => rfl
    | ok there =>
      dsimp only
      simp only [visitsWith, List.mem_cons, forall_eq_or_imp] at h
      split
      · rename_i hc
        rw [if_pos hc] at h
        exact ih l h.2
      · rename_i hhere
        rw [if_neg hhere] at h
        split
        · rename_i hc
          rw [if_pos hc] at h
          exact ih l.dropLast h.2
        · rename_i hup
          rw [if_neg hup] at h
          simp only [List.mem_cons, forall_eq_or_imp] at h
          -- The component is looked up, and the nodes there are of one kind.
          rcases Node.outline_cases h.2.1 with ⟨h₁, h₂⟩ | ⟨m, t, t', h₁, h₂⟩ | ⟨target, h₁, h₂⟩ |
            ⟨a, m, t, a', t', h₁, h₂⟩
          · rw [h₁, h₂]
          · rw [h₁] at h
            rw [h₁, h₂]
            dsimp only
            rw [ih (l ++ [c]) h.2.2]
          · rw [h₁] at h
            rw [h₁, h₂]
            dsimp only at h ⊢
            by_cases hlast : rest = [] ∧ (!follow) = true
            · simp only [if_pos hlast]
            · rw [if_neg hlast] at h
              simp only [if_neg hlast, hlink _ _ h.2.2]
          · rw [h₁] at h
            rw [h₁, h₂]
            dsimp only
            rw [ih (l ++ [c]) h.2.2]

theorem walk_eq_of_visits {d d' : Disk} (follow : Bool) (n : Nat) (l : Location) (cs : List Text)
    (h : ∀ x ∈ d.visits follow n l cs, AgreeAt d d' x) :
    d.walk follow n l cs = d'.walk follow n l cs := by
  induction n generalizing l cs with
  | zero => exact walkWith_eq_of_visits (fun _ _ _ => rfl) l cs h
  | succ n ih => exact walkWith_eq_of_visits (fun l cs h => ih l cs h) l cs h

theorem mem_visitsWith_of_found {d : Disk} {follow : Bool}
    {onLink : Location → List Text → Except Errno Place}
    {onLinkVisits : Location → List Text → List Location} {x : Location}
    (hlink : ∀ l cs, onLink l cs = .ok (.found x) → x ∈ onLinkVisits l cs) (l : Location)
    (cs : List Text) (h : d.walkWith follow onLink l cs = .ok (.found x)) :
    x ∈ d.visitsWith follow onLinkVisits l cs := by
  induction cs generalizing l with
  | nil =>
    simp only [walkWith, Except.ok.injEq, Place.found.injEq] at h
    simp [visitsWith, h]
  | cons c rest ih =>
    rw [walkWith_cons] at h
    cases hfooting : d.footing l with
    | error e => simp [hfooting] at h
    | ok there =>
      rw [hfooting] at h
      dsimp only at h
      simp only [visitsWith, List.mem_cons]
      right
      split at h
      · rename_i hc
        rw [if_pos hc]
        exact ih l h
      · rename_i hhere
        rw [if_neg hhere]
        split at h
        · rename_i hc
          rw [if_pos hc]
          exact ih l.dropLast h
        · rename_i hup
          rw [if_neg hup]
          split at h
          · simp at h
          split at h
          · simp at h
          rw [List.mem_cons]
          rcases hnode : d.node? (l ++ [c]) with _ | (⟨data, m, t⟩ | ⟨m, t⟩ | target) <;>
            rw [hnode] at h <;> dsimp only at h ⊢
          · split at h <;> simp at h
          · exact Or.inr (ih (l ++ [c]) h)
          · exact Or.inr (ih (l ++ [c]) h)
          · split at h
            · rename_i hlast
              simp only [Except.ok.injEq, Place.found.injEq] at h
              exact Or.inl h.symm
            · rename_i hlast
              rw [if_neg hlast]
              exact Or.inr (hlink _ _ h)

theorem mem_visits_of_found {d : Disk} {follow : Bool} {x : Location} (n : Nat) (l : Location)
    (cs : List Text) (h : d.walk follow n l cs = .ok (.found x)) : x ∈ d.visits follow n l cs := by
  induction n generalizing l cs with
  | zero => exact mem_visitsWith_of_found (by simp) l cs h
  | succ n ih => exact mem_visitsWith_of_found ih l cs h

/-! ### Ways -/

section Ways

variable {d d' : Disk} {p : Text}

theorem place_eq_of_way {follow : Bool} (hcwd : d.cwd = d'.cwd)
    (h : ∀ x ∈ d.way follow p, AgreeAt d d' x) : d.place follow p = d'.place follow p := by
  unfold place
  rw [← start_congr hcwd]
  unfold way at h
  cases hstart : d.start p with
  | error e => rfl
  | ok l =>
    rw [hstart] at h
    exact walk_eq_of_visits follow linkLimit l (steps p) h

theorem mem_way_of_found {follow : Bool} {x : Location} (h : d.place follow p = .ok (.found x)) :
    x ∈ d.way follow p := by
  unfold place at h
  unfold way
  cases hstart : d.start p with
  | error e => simp [hstart] at h
  | ok l =>
    rw [hstart] at h
    exact mem_visits_of_found linkLimit l (steps p) h

theorem holder_eq_of_approach (hcwd : d.cwd = d'.cwd)
    (h : ∀ x ∈ d.approach p, AgreeAt d d' x) : d.holder p = d'.holder p := by
  unfold holder
  rw [← start_congr hcwd]
  unfold approach at h
  cases hstart : d.start p with
  | error e => rfl
  | ok l =>
    rw [hstart] at h
    dsimp only at h ⊢
    rw [walk_eq_of_visits true linkLimit l _ h]

theorem mem_approach_of_holder {dir : Location} {c : Text}
    (h : d.holder p = .ok (dir, some c)) : dir ∈ d.approach p := by
  unfold holder at h
  unfold approach
  cases hstart : d.start p with
  | error e => simp [hstart] at h
  | ok l =>
    rw [hstart] at h
    dsimp only at h ⊢
    split at h
    · simp at h
    · split at h
      · simp at h
      · simp at h
      · rename_i dir' hwalk
        obtain ⟨rfl, _⟩ : dir' = dir ∧ _ := by simpa using h
        exact mem_visits_of_found linkLimit l _ hwalk

end Ways

/-! ### The end of a path -/

/-- A walk does not end at a symbolic link. -/
def EndsUnlinked (d : Disk) (r : Except Errno Place) : Prop :=
  ∀ x, r = .ok (.found x) → ∀ target, d.node? x ≠ some (.link target)

/-- Where a walk does not end at a link, it makes no difference whether that is followed. -/
theorem walkWith_follow {d : Disk} {onLink onLink' : Location → List Text → Except Errno Place}
    (hlink : ∀ l cs, d.EndsUnlinked (onLink' l cs) → onLink l cs = onLink' l cs)
    (l : Location) (cs : List Text) (h : d.EndsUnlinked (d.walkWith false onLink' l cs)) :
    d.walkWith true onLink l cs = d.walkWith false onLink' l cs := by
  induction cs generalizing l with
  | nil => rfl
  | cons c rest ih =>
    rw [walkWith_cons] at h
    rw [walkWith_cons, walkWith_cons]
    cases hfooting : d.footing l with
    | error e => rfl
    | ok there =>
      rw [hfooting] at h
      dsimp only at h ⊢
      by_cases hhere : c = Path.here
      · rw [if_pos hhere] at h
        rw [if_pos hhere, if_pos hhere]
        exact ih l h
      rw [if_neg hhere] at h
      rw [if_neg hhere, if_neg hhere]
      by_cases hup : c = Path.up
      · rw [if_pos hup] at h
        rw [if_pos hup, if_pos hup]
        exact ih l.dropLast h
      rw [if_neg hup] at h
      rw [if_neg hup, if_neg hup]
      by_cases hthere : there = false
      · rw [if_pos hthere, if_pos hthere]
      rw [if_neg hthere] at h
      rw [if_neg hthere, if_neg hthere]
      by_cases hlong : nameLimit < c.length
      · rw [if_pos hlong, if_pos hlong]
      rw [if_neg hlong] at h
      rw [if_neg hlong, if_neg hlong]
      rcases hnode : d.node? (l ++ [c]) with _ | (⟨data, m, t⟩ | ⟨m, t⟩ | target) <;>
        rw [hnode] at h <;> dsimp only at h ⊢
      · exact ih (l ++ [c]) h
      · exact ih (l ++ [c]) h
      · by_cases hrest : rest = []
        · -- This is the last component, and it is no link.
          simp only [hrest, Bool.not_false, and_self, if_true] at h
          exact absurd hnode (h _ rfl target)
        · simp only [hrest, false_and, if_false] at h ⊢
          exact hlink _ _ h

theorem walk_follow {d : Disk} (n : Nat) (l : Location) (cs : List Text)
    (h : d.EndsUnlinked (d.walk false n l cs)) : d.walk true n l cs = d.walk false n l cs := by
  induction n generalizing l cs with
  | zero => exact walkWith_follow (fun _ _ _ => rfl) l cs h
  | succ n ih => exact walkWith_follow (fun l cs h => ih l cs h) l cs h

theorem place_follow {d : Disk} {p : Text} (h : d.EndsUnlinked (d.place false p)) :
    d.place true p = d.place false p := by
  unfold place at h ⊢
  cases hstart : d.start p with
  | error e => rfl
  | ok l =>
    rw [hstart] at h
    exact walk_follow linkLimit l (steps p) h

/-! ### Names with a suffix -/

/-- A name with a suffix is looked up in the directory that holds it. -/
theorem place_append {u : Text} (hu : Path.Suffix u) (d : Disk) (front : Text) :
    (∃ e, d.holder (front ++ u) = .error e ∧ d.place false (front ++ u) = .error e) ∨
    ∃ dir c, d.holder (front ++ u) = .ok (dir, some c) ∧ c ≠ Path.here ∧ c ≠ Path.up ∧
      d.place false (front ++ u) = d.thence c (.ok (.found dir)) := by
  obtain ⟨ps, last, hpieces⟩ := Path.pieces_append front
  have hsteps : steps (front ++ u) = ps ++ [last ++ u] := by
    unfold steps
    rw [hpieces u hu, if_neg fun hp => hu.getLast?_ne_slash front hp.2]
  have hc := (hu.ordinary last).2
  simp only [holder, place, hpieces u hu, List.getLast?_concat, List.dropLast_concat, hsteps]
  cases d.start (front ++ u) with
  | error e => exact Or.inl ⟨e, rfl, rfl⟩
  | ok l =>
    dsimp only
    rw [walk_concat d hc]
    rcases d.walk true linkLimit l (ps ++ [Path.here]) with e | (dir | _)
    · exact Or.inl ⟨e, rfl, rfl⟩
    · exact Or.inr ⟨dir, _, rfl, hc.1, hc.2, rfl⟩
    · exact Or.inl ⟨.missing, rfl, rfl⟩

/-- The location of a node, or of one that would be made. -/
def Place.location : Place → Location
  | found l => l
  | free dir name => dir ++ [name]

/-- A name with a suffix leads to its own location in the directory that holds it. -/
theorem spot?_of_place_append {u : Text} (hu : Path.Suffix u) {d : Disk} {front : Text} {r : Place}
    (h : d.place false (front ++ u) = .ok r) : d.spot? (front ++ u) = some r.location := by
  rcases place_append hu d front with ⟨e, _, hplace⟩ | ⟨dir, c, hholder, hhere, hup, hplace⟩
  · simp [hplace] at h
  · rw [hplace] at h
    unfold thence at h
    dsimp only at h
    split at h
    · simp at h
    split at h
    · simp at h
    · rename_i hshort
      have hspot : d.spot? (front ++ u) = some (dir ++ [c]) := by
        simp [spot?, hholder, irremovable?, hhere, hup, hshort]
      rw [hspot]
      split at h <;> rw [← Except.ok.inj h, Place.location]

/-- Where there is no link at that location, the name leads there if links are followed, too. -/
theorem place_append_follow {u : Text} (hu : Path.Suffix u) {d : Disk} {front : Text}
    (h : ∀ x, d.spot? (front ++ u) = some x → ∀ target, d.node? x ≠ some (.link target)) :
    d.place true (front ++ u) = d.place false (front ++ u) :=
  place_follow fun x hx target => h x (spot?_of_place_append hu hx) target

/-- A path that does not lead through an area finds the same on disks that are the same
    elsewhere. -/
theorem stat_eq_of_way {area : Set Location} {d d' : Disk} {p : Text}
    (h : AlikeBeyond area ∅ d d') (hway : ∀ x ∈ d.way true p, x ∉ area) :
    d.stat p = d'.stat p := by
  have hnode : ∀ x ∈ d.way true p, d.node? x = d'.node? x :=
    fun x hx => h.node_eq (hway x hx) (Set.notMem_empty x)
  have hplace : d.place true p = d'.place true p := by
    refine place_eq_of_way h.cwd fun x hx => ?_
    unfold AgreeAt
    rw [hnode x hx]
  have hfind : d.find true p = d'.find true p := by
    unfold find
    rw [← hplace]
    cases hp : d.place true p with
    | error e => rfl
    | ok q =>
      cases q with
      | found l =>
        dsimp only
        rw [hnode l (mem_way_of_found hp)]
      | free dir name => rfl
  unfold stat
  rw [hfind]

/-- A directory has no names in it exactly if no node is right below it. -/
theorem names_eq_nil_iff (d : Disk) (l : Location) :
    d.names l = [] ↔ ∀ c, d.node? (l ++ [c]) = none := by
  refine ⟨fun h c => ?_, names_eq_nil⟩
  cases hn : d.node? (l ++ [c]) with
  | none => rfl
  | some n =>
    have hmem : (l ++ [c], n) ∈ d.tree l := by
      refine List.mem_filter.mpr ⟨(SortedMap.mem_pairs_iff d.nodes _ n).mpr hn, ?_⟩
      simp [below]
    have hname : c ∈ d.names l := List.mem_filterMap.mpr ⟨_, hmem, by simp⟩
    rw [h] at hname
    simp at hname

end Gauntlet.Disk
