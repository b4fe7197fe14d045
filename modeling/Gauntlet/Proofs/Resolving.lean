import Gauntlet.Disk.Resolve
import Gauntlet.Proofs.CaseNames
import Gauntlet.Proofs.Growth

/-! # Resolved names

  A path is followed in two ways. A walk goes from location to location and reads each link
  where it stands. Resolving works on the name instead: it keeps a trail, asks for every name
  on it from the start again, and puts the target of a link in the place of its name. The two
  agree. Where a walk leads to a file, resolving gives a name that ends in the last component
  of the location (`resolved?_of_find`).

  There is one exception. A trail can become longer than the path and all targets, since `..`
  is kept on it where the name before it may lead elsewhere. A name that is too long cannot be
  asked for, and then there is no resolved name (`resolved?_of_long`).

  - `Traces`: where the trail leads, which has no links on it.
  - `Matches`: the components that a walk has still to go, against those of resolving, which
    have empty ones between them.
  - `Named`: names on the disk are such as can be written in a path.
-/

namespace Gauntlet

/-! ### Names of components -/

namespace Path

theorem ordinary_iff (c : Text) : Ordinary c ↔ c ≠ [] ∧ slash ∉ c ∧ c ≠ here ∧ c ≠ up :=
  ⟨fun h => ⟨h.ne_nil, h.noSlash, h.ne_here, h.ne_up⟩, fun ⟨h₁, h₂, h₃, h₄⟩ => ⟨h₁, h₂, h₃, h₄⟩⟩

instance (c : Text) : Decidable (Ordinary c) := decidable_of_iff _ (ordinary_iff c).symm

theorem filter_pieces_intercalate {cs : List Text} (h : ∀ c ∈ cs, c ≠ [] ∧ slash ∉ c) :
    (pieces (Text.intercalate [slash] cs)).filter (· ≠ []) = cs := by
  induction cs with
  | nil => rfl
  | cons c cs ih =>
    obtain ⟨hne, hslash⟩ := h c List.mem_cons_self
    have hrest := ih fun c' hc' => h c' (List.mem_cons_of_mem c hc')
    cases cs with
    | nil => simp [Text.intercalate, pieces, Text.splitOn_of_not_mem hslash, hne]
    | cons c' cs =>
      have hsplit : Text.intercalate [slash] (c :: c' :: cs) =
          c ++ slash :: Text.intercalate [slash] (c' :: cs) := by
        simp [Text.intercalate]
      rw [hsplit, pieces, Text.splitOn_append_sep, List.filter_append,
        Text.splitOn_of_not_mem hslash]
      rw [pieces] at hrest
      rw [hrest]
      simp [hne]

/-- A joined name has no other bytes than its components, and slashes. -/
theorem not_mem_intercalate {b : UInt8} (hb : b ≠ slash) {cs : List Text} (h : ∀ c ∈ cs, b ∉ c) :
    b ∉ Text.intercalate [slash] cs := by
  induction cs with
  | nil => simp [Text.intercalate]
  | cons c cs ih =>
    have hc := h c List.mem_cons_self
    have hrest := ih fun c' hc' => h c' (List.mem_cons_of_mem c hc')
    cases cs with
    | nil => exact hc
    | cons c' cs => simp [Text.intercalate, hc, hb, hrest]

/-- The last component of a name is kept when it is cleaned. -/
theorem base_clean {t c : Text} (hc : Ordinary c) (ht : t = [] ∨ ∃ t', t = t' ++ [slash]) :
    base (clean (t ++ c)) = c := by
  obtain ⟨qs, hqs⟩ := pieces_concat hc.noSlash ht
  have hcomponents : components (t ++ c) = reduce (isAbsolute (t ++ c)) [] qs ++ [c] := by
    rw [components, hqs, reduce_concat _ ⟨hc.ne_nil, hc.ne_here, hc.ne_up⟩]
  rw [clean, hcomponents]
  generalize reduce (isAbsolute (t ++ c)) [] qs = cs
  by_cases habsolute : isAbsolute (t ++ c) = true
  · rw [if_pos habsolute]
    exact base_absolute_concat cs hc
  · rw [if_neg habsolute]
    obtain ⟨front, b, rfl, hb⟩ := hc.exists_last
    obtain ⟨lead, hlead, hend⟩ := relative_concat cs (front ++ [b])
    have hslash : ∀ a ∈ (front ++ [b]).reverse, decide (a ≠ slash) = true := by
      intro a ha
      have hne : a ≠ slash := fun heq => hc.noSlash (heq ▸ List.mem_reverse.mp ha)
      simpa using hne
    have htrailing : withoutTrailing (lead ++ (front ++ [b])) = lead ++ (front ++ [b]) := by
      simp [withoutTrailing, hb]
    have hlast : ((lead ++ (front ++ [b])).reverse.takeWhile (· ≠ slash)).reverse =
        front ++ [b] := by
      rw [List.reverse_append, List.takeWhile_append_of_pos hslash]
      rcases hend with rfl | ⟨t', rfl⟩ <;> simp
    rw [hlead, base, htrailing]
    simp only [hlast]
    simp

end Path

namespace Disk

open Gauntlet.Path (Plain Ordinary)

/-! ### Names on the disk -/

/-- Names on the disk are such as can be written in a path: they stand for themselves and have
    no zero byte. -/
def Named (d : Disk) : Prop := ∀ l c n, d.node? (l ++ [c]) = some n → Ordinary c ∧ 0 ∉ c

theorem named_iff (d : Disk) :
    d.Named ↔ ∀ p ∈ d.nodes.pairs, ∀ c ∈ p.1.getLast?, Ordinary c ∧ 0 ∉ c := by
  constructor
  · rintro h ⟨l, n⟩ hmem c hc
    obtain ⟨front, rfl⟩ := List.getLast?_eq_some_iff.mp hc
    exact h front c n ((SortedMap.mem_pairs_iff d.nodes _ n).mp hmem)
  · intro h l c n hn
    exact h (l ++ [c], n) ((SortedMap.mem_pairs_iff d.nodes _ n).mpr hn) c (by simp)

instance (d : Disk) : Decidable d.Named := decidable_of_iff _ (named_iff d).symm

/-! ### Trails -/

/-- Where a trail starts. -/
def origin (d : Disk) (rooted : Bool) : Option Location := if rooted then some [] else d.cwd

/-- A trail leads to a location. Each of its parts is a name in a directory, and not that of a
    link, or leads up. -/
inductive Traces (d : Disk) (rooted : Bool) : List Text → Location → Prop where
  | start {o : Location} (h : d.origin rooted = some o) : Traces d rooted [] o
  | down {parts : List Text} {l : Location} {c : Text} {n : Node} (h : Traces d rooted parts l)
      (hl : d.footing l = .ok true) (hshort : c.length ≤ nameLimit)
      (hn : d.node? (l ++ [c]) = some n) (hlink : ∀ target, n ≠ .link target) :
      Traces d rooted (c :: parts) (l ++ [c])
  | up {parts : List Text} {l : Location} {there : Bool} (h : Traces d rooted parts l)
      (hl : d.footing l = .ok there) : Traces d rooted (Path.up :: parts) l.dropLast

namespace Traces

variable {d : Disk} {rooted : Bool} {parts : List Text} {l : Location} {c : Text}

/-- Parts of a trail are components without a zero byte. -/
theorem solid (h : Traces d rooted parts l) (hnamed : d.Named) :
    ∀ c ∈ parts, c ≠ [] ∧ Path.slash ∉ c ∧ 0 ∉ c := by
  induction h with
  | start _ => simp
  | down _ _ _ hn _ ih =>
    obtain ⟨hc, hzero⟩ := hnamed _ _ _ hn
    exact List.forall_mem_cons.mpr ⟨⟨hc.ne_nil, hc.noSlash, hzero⟩, ih⟩
  | up _ _ ih => exact List.forall_mem_cons.mpr ⟨by decide, ih⟩

theorem exists_origin (h : Traces d rooted parts l) : ∃ o, d.origin rooted = some o := by
  induction h with
  | start h => exact ⟨_, h⟩
  | down _ _ _ _ _ ih => exact ih
  | up _ _ ih => exact ih

/-- A walk over a trail goes on from where it leads. -/
theorem walkWith_eq (h : Traces d rooted parts l) (hnamed : d.Named) {o : Location}
    (ho : d.origin rooted = some o) (onLink : Location → List Text → Except Errno Place)
    (rest : List Text) :
    d.walkWith false onLink o (parts.reverse ++ rest) = d.walkWith false onLink l rest := by
  induction h generalizing rest with
  | start h =>
    obtain rfl := Option.some.inj (h.symm.trans ho)
    rfl
  | down _ hl hshort hn hlink ih =>
    rename_i l c n _
    obtain ⟨hc, _⟩ := hnamed _ _ _ hn
    have hlooks : LooksUp d l c := ⟨hc.ne_here, hc.ne_up, hl, hshort⟩
    rw [List.reverse_cons, List.append_assoc, List.singleton_append, ih,
      hlooks.walkWith_down hn hlink]
  | up _ hl ih =>
    rw [List.reverse_cons, List.append_assoc, List.singleton_append, ih, walkWith_up hl]

/-- Going up: the last part is taken back if it is a name that is not the first. -/
theorem trail_up {q : Trail} {there : Bool} (h : Traces d q.rooted q.parts l)
    (hl : d.footing l = .ok there) : Traces d q.up.rooted q.up.parts l.dropLast := by
  obtain ⟨rooted, parts⟩ := q
  match parts, h with
  | [], h => exact h.up hl
  | [_], h => exact h.up hl
  | last :: second :: rest, h =>
    unfold Trail.up
    dsimp only
    by_cases hlast : last = Path.up
    · rw [if_pos hlast]
      exact h.up hl
    · rw [if_neg hlast]
      cases h with
      | down hback _ _ _ _ =>
        rw [List.dropLast_concat]
        exact hback
      | up _ _ => exact absurd rfl hlast

end Traces

/-! ### The name of a trail -/

section Path

variable {rooted : Bool} {parts : List Text}

theorem path_of_not_rooted (parts : List Text) :
    Trail.path ⟨false, parts⟩ = Text.intercalate [Path.slash] parts.reverse := rfl

theorem path_of_rooted (parts : List Text) :
    Trail.path ⟨true, parts⟩ = Path.slash :: Text.intercalate [Path.slash] parts.reverse := rfl

theorem path_cons (rooted : Bool) (c : Text) (parts : List Text) :
    ∃ front, Trail.path ⟨rooted, c :: parts⟩ = front ++ c ∧
      (front = [] ∨ ∃ t, front = t ++ [Path.slash]) := by
  cases rooted with
  | true =>
    refine ⟨(if parts.reverse = [] then [] else Path.absolute parts.reverse) ++ [Path.slash], ?_,
      Or.inr ⟨_, rfl⟩⟩
    have hpath : Trail.path ⟨true, c :: parts⟩ = Path.absolute (parts.reverse ++ [c]) := by
      rw [← List.reverse_cons]
      rfl
    rw [hpath, Path.absolute_concat, List.append_assoc, List.singleton_append]
  | false =>
    obtain ⟨front, hfront, hend⟩ := Path.relative_concat parts.reverse c
    refine ⟨front, ?_, hend⟩
    rw [← hfront, path_of_not_rooted, List.reverse_cons, Path.relative, if_neg (by simp)]

theorem isAbsolute_path {c : Text} (hparts : ∀ c' ∈ c :: parts, c' ≠ [] ∧ Path.slash ∉ c') :
    Path.isAbsolute (Trail.path ⟨rooted, c :: parts⟩) = rooted := by
  cases rooted with
  | true => rfl
  | false =>
    have hne : (c :: parts).reverse ≠ [] := by simp
    rw [path_of_not_rooted]
    obtain ⟨first, rest, hfirst⟩ := List.exists_cons_of_ne_nil hne
    have hmem : first ∈ c :: parts := by
      rw [← List.mem_reverse, hfirst]
      exact List.mem_cons_self
    obtain ⟨hnil, hslash⟩ := hparts first hmem
    obtain ⟨b, bs, rfl⟩ := List.exists_cons_of_ne_nil hnil
    have hb : b ≠ Path.slash := fun heq => hslash (heq ▸ List.mem_cons_self)
    rw [hfirst]
    cases rest with
    | nil => simp [Text.intercalate, Path.isAbsolute, hb]
    | cons _ _ => simp [Text.intercalate, Path.isAbsolute, hb]

theorem steps_path {c : Text} (hc : Path.slash ∉ c ∧ c ≠ [])
    (hparts : ∀ c' ∈ c :: parts, c' ≠ [] ∧ Path.slash ∉ c') :
    steps (Trail.path ⟨rooted, c :: parts⟩) = (c :: parts).reverse := by
  have hpieces : (Path.pieces (Trail.path ⟨rooted, c :: parts⟩)).filter (· ≠ []) =
      (c :: parts).reverse := by
    have hsolid : ∀ c' ∈ (c :: parts).reverse, c' ≠ [] ∧ Path.slash ∉ c' :=
      fun c' hc' => hparts c' (List.mem_reverse.mp hc')
    have hintercalate := Path.filter_pieces_intercalate hsolid
    cases rooted with
    | false => exact hintercalate
    | true =>
      rw [path_of_rooted, Path.pieces, Text.splitOn, if_pos rfl, List.filter_cons_of_neg (by simp)]
      exact hintercalate
  rw [steps, hpieces]
  refine if_neg ?_
  -- The name ends as its last part does.
  rintro ⟨_, hlast⟩
  obtain ⟨front, hfront, _⟩ := path_cons rooted c parts
  rw [hfront, List.getLast?_append, List.getLast?_eq_some_getLast hc.2] at hlast
  have hslash : c.getLast hc.2 = Path.slash := by simpa using hlast
  exact hc.1 (hslash ▸ List.getLast_mem hc.2)

end Path

theorem find_of_long {p : Text} (d : Disk) (follow : Bool) (hlong : pathLimit ≤ p.length) :
    ∃ e, d.find follow p = .error e := by
  cases hfind : d.find follow p with
  | error e => exact ⟨e, rfl⟩
  | ok found =>
    have hplace := (find_eq_ok.mp (show d.find follow p = .ok (found.1, found.2) from hfind)).1
    unfold place at hplace
    cases hstart : d.start p with
    | error e => simp [hstart] at hplace
    | ok l =>
      have hshort := (start_eq_ok hstart).2.1
      omega

/-- What the name of a trail finds, with one more part in the directory to which it leads. -/
theorem Traces.find {d : Disk} {rooted : Bool} {parts : List Text} {l : Location} {c : Text}
    {n : Node} (h : Traces d rooted parts l) (hnamed : d.Named) (hl : d.footing l = .ok true)
    (hshort : c.length ≤ nameLimit) (hn : d.node? (l ++ [c]) = some n)
    (hlong : (Trail.path ⟨rooted, c :: parts⟩).length < pathLimit) :
    d.find false (Trail.path ⟨rooted, c :: parts⟩) = .ok (l ++ [c], n) := by
  obtain ⟨hc, hzero⟩ := hnamed _ _ _ hn
  have hsolid : ∀ c' ∈ c :: parts, c' ≠ [] ∧ Path.slash ∉ c' ∧ 0 ∉ c' :=
    List.forall_mem_cons.mpr ⟨⟨hc.ne_nil, hc.noSlash, hzero⟩, h.solid hnamed⟩
  have hparts : ∀ c' ∈ c :: parts, c' ≠ [] ∧ Path.slash ∉ c' :=
    fun c' hc' => ⟨(hsolid c' hc').1, (hsolid c' hc').2.1⟩
  obtain ⟨o, ho⟩ := h.exists_origin
  have hstart : d.start (Trail.path ⟨rooted, c :: parts⟩) = .ok o := by
    have hnozero : (Trail.path ⟨rooted, c :: parts⟩).contains 0 = false := by
      have hjoined : 0 ∉ Text.intercalate [Path.slash] (c :: parts).reverse :=
        Path.not_mem_intercalate (by decide) fun c' hc' => (hsolid c' (List.mem_reverse.mp hc')).2.2
      cases rooted with
      | false =>
        rw [path_of_not_rooted]
        simpa using hjoined
      | true =>
        have hslash : (0 : UInt8) ≠ Path.slash := by decide
        rw [path_of_rooted]
        simpa [hslash] using hjoined
    have hne : Trail.path ⟨rooted, c :: parts⟩ ≠ [] := by
      obtain ⟨front, hfront, _⟩ := path_cons rooted c parts
      rw [hfront]
      simp [hc.ne_nil]
    unfold Disk.start
    rw [if_neg (by rw [hnozero]; simp), if_neg hne, if_neg (by omega), isAbsolute_path hparts]
    unfold origin at ho
    cases rooted with
    | true =>
      obtain rfl := Option.some.inj ho
      rfl
    | false =>
      have ho : d.cwd = some o := ho
      simp [ho]
  refine find_eq_ok.mpr ⟨?_, hn⟩
  have hlooks : LooksUp d l c := ⟨hc.ne_here, hc.ne_up, hl, hshort⟩
  unfold place
  rw [hstart, steps_path ⟨hc.noSlash, hc.ne_nil⟩ hparts, List.reverse_cons]
  dsimp only
  unfold linkLimit walk
  rw [h.walkWith_eq hnamed ho, hlooks.walkWith_eq, hn]
  cases n with
  | link target => simp
  | file _ _ _ => rfl
  | dir _ _ => rfl

/-! ### Components of a walk and of resolving -/

/-- The components that a walk has still to go, against those that resolving has still to go.
    The latter may have empty components in front of others, and a walk may have to stay. -/
inductive Matches : List Text → List Text → Prop where
  | nil : Matches [] []
  | cons {c : Text} {ws rs : List Text} (hc : c ≠ []) (h : Matches ws rs) :
      Matches (c :: ws) (c :: rs)
  | skip {ws rs : List Text} (hws : ws ≠ []) (h : Matches ws rs) : Matches ws ([] :: rs)
  | stay {ws rs : List Text} (h : Matches ws rs) : Matches (Path.here :: ws) rs

namespace Matches

variable {ws rs ws' rs' : List Text}

theorem append (h : Matches ws rs) (h' : Matches ws' rs') : Matches (ws ++ ws') (rs ++ rs') := by
  induction h with
  | nil => exact h'
  | cons hc _ ih => exact ih.cons hc
  | skip hws _ ih => exact ih.skip (by simp [hws])
  | stay _ ih => exact ih.stay

/-- Pieces of which the last is not empty. -/
theorem of_pieces (ps : List Text) (hlast : ps.getLast? ≠ some []) :
    Matches (ps.filter (· ≠ [])) ps := by
  induction ps with
  | nil => exact .nil
  | cons p ps ih =>
    by_cases hps : ps = []
    · subst hps
      have hp : p ≠ [] := by simpa using hlast
      simpa [hp] using Matches.cons hp .nil
    · have hlast' : ps.getLast? ≠ some [] := by
        rwa [List.getLast?_cons_of_ne_nil hps] at hlast
      by_cases hp : p = []
      · subst hp
        rw [List.filter_cons_of_neg (by simp)]
        refine (ih hlast').skip ?_
        -- The last piece stays.
        have hne : ps.getLast hps ≠ [] := by
          intro hnil
          rw [List.getLast?_eq_some_getLast hps, hnil] at hlast'
          exact hlast' rfl
        have hmem : ps.getLast hps ∈ ps.filter (· ≠ []) :=
          List.mem_filter.mpr ⟨List.getLast_mem hps, by simp [hne]⟩
        exact List.ne_nil_of_mem hmem
      · rw [List.filter_cons_of_pos (by simp [hp])]
        exact (ih hlast').cons hp

/-- Pieces after which a walk has to stay. -/
theorem of_pieces_stay (ps : List Text) : Matches (ps.filter (· ≠ []) ++ [Path.here]) ps := by
  induction ps with
  | nil => exact Matches.nil.stay
  | cons p ps ih =>
    by_cases hp : p = []
    · subst hp
      rw [List.filter_cons_of_neg (by simp)]
      exact ih.skip (by simp)
    · rw [List.filter_cons_of_pos (by simp [hp])]
      exact ih.cons hp

theorem skips {ps : List Text} (hps : ∀ p ∈ ps, p = []) (hws : ws ≠ []) (h : Matches ws rs) :
    Matches ws (ps ++ rs) := by
  induction ps with
  | nil => exact h
  | cons p ps ih =>
    obtain rfl := hps p List.mem_cons_self
    exact (ih fun p' hp' => hps p' (List.mem_cons_of_mem _ hp')).skip hws

/-- A path that does not end in a slash has a last piece that is not empty. -/
theorem getLast?_pieces {t : Text} (hne : t ≠ []) (hlast : t.getLast? ≠ some Path.slash) :
    (Path.pieces t).getLast? ≠ some [] := by
  obtain ⟨u, b, rfl⟩ : ∃ u b, t = u ++ [b] :=
    ⟨t.dropLast, t.getLast hne, (List.dropLast_concat_getLast hne).symm⟩
  have hb : b ≠ Path.slash := by simpa using hlast
  obtain ⟨ps, last, hsplit⟩ := Text.splitOn_append Path.slash u
  have hpieces : Path.pieces (u ++ [b]) = ps ++ [last ++ [b]] :=
    hsplit [b] (by simpa using hb.symm)
  rw [hpieces]
  simp

/-- A walk has to stay if there is a slash at the end. -/
theorem steps_cases (t : Text) :
    steps t = (Path.pieces t).filter (· ≠ []) ++ [Path.here] ∨
    (steps t = (Path.pieces t).filter (· ≠ []) ∧
      (steps t = [] ∨ t.getLast? ≠ some Path.slash)) := by
  unfold steps
  dsimp only
  by_cases hslash : (Path.pieces t).filter (· ≠ []) ≠ [] ∧ t.getLast? = some Path.slash
  · rw [if_pos hslash]
    exact Or.inl rfl
  · rw [if_neg hslash]
    refine Or.inr ⟨rfl, ?_⟩
    by_cases hnil : (Path.pieces t).filter (· ≠ []) = []
    · exact Or.inl hnil
    · exact Or.inr fun hlast => hslash ⟨hnil, hlast⟩

theorem of_steps {t : Text} (h : steps t ≠ []) : Matches (steps t) (Path.pieces t) := by
  rcases steps_cases t with hsteps | ⟨hsteps, hnil | hlast⟩
  · rw [hsteps]
    exact of_pieces_stay _
  · exact absurd hnil h
  · have hne : t ≠ [] := by
      rintro rfl
      exact h rfl
    rw [hsteps]
    exact of_pieces _ (getLast?_pieces hne hlast)

/-- The target of a link in front of the rest. -/
theorem of_target {t : Text} (hne : steps t ++ ws ≠ []) (h : Matches ws rs) :
    Matches (steps t ++ ws) (Path.pieces t ++ rs) := by
  by_cases ht : steps t = []
  · rw [ht, List.nil_append] at hne ⊢
    have hfilter : (Path.pieces t).filter (· ≠ []) = [] := by
      rcases steps_cases t with hsteps | ⟨hsteps, _⟩
      · simp [ht] at hsteps
      · rw [← hsteps, ht]
    have hempty : ∀ p ∈ Path.pieces t, p = [] := by
      intro p hp
      simpa using List.filter_eq_nil_iff.mp hfilter p hp
    exact h.skips hempty hne
  · exact (of_steps ht).append h

end Matches

/-! ### The names that are asked for -/

/-- The names that are asked for when links in components are replaced; `onLink` lists those
    after a link. -/
def lookupsWith (d : Disk) (onLink : Trail → List Text → List Text) : Trail → List Text → List Text
  | _, [] => []
  | q, c :: rest =>
    if c = [] ∨ c = Path.here then lookupsWith d onLink q rest
    else if c = Path.up then lookupsWith d onLink q.up rest
    else
      let q' : Trail := { q with parts := c :: q.parts }
      q'.path ::
        match d.find false q'.path with
        | .error _ => []
        | .ok (_, .link target) =>
          onLink (if Path.isAbsolute target then ⟨true, []⟩ else q) (Path.pieces target ++ rest)
        | .ok (_, n) => if !n.isDir && rest ≠ [] then [] else lookupsWith d onLink q' rest

/-- The names that are asked for when at most a number of links are replaced. -/
def lookups (d : Disk) : (links : Nat) → Trail → List Text → List Text
  | 0 => lookupsWith d fun _ _ => []
  | n + 1 => lookupsWith d (lookups d n)

/-- The names that are asked for when a path is resolved: the path up to each of its names,
    with the links before it replaced. -/
def lookedUp (d : Disk) (p : Text) : List Text :=
  d.lookups replacementLimit ⟨Path.isAbsolute p, []⟩ (Path.pieces p)

/-- All names that are asked for when a path is resolved are short enough. -/
def Resolvable (d : Disk) (p : Text) : Prop := ∀ u ∈ d.lookedUp p, u.length < pathLimit

instance (d : Disk) (p : Text) : Decidable (d.Resolvable p) :=
  inferInstanceAs (Decidable (∀ u ∈ d.lookedUp p, u.length < pathLimit))

section Name

variable {d : Disk} {onLink : Trail → List Text → Option Trail}
  {onLinkLookups : Trail → List Text → List Text} {q : Trail} {c : Text} {rest : List Text}
  {x : Location} {n : Node} {target : Text}

theorem mem_lookupsWith (hc : Ordinary c) :
    Trail.path ⟨q.rooted, c :: q.parts⟩ ∈ d.lookupsWith onLinkLookups q (c :: rest) := by
  rw [lookupsWith, if_neg (by simp [hc.ne_nil, hc.ne_here]), if_neg hc.ne_up]
  exact List.mem_cons_self

theorem resolveWith_link (hc : Ordinary c)
    (h : d.find false (Trail.path ⟨q.rooted, c :: q.parts⟩) = .ok (x, .link target)) :
    d.resolveWith onLink q (c :: rest) =
      onLink (if Path.isAbsolute target then ⟨true, []⟩ else q) (Path.pieces target ++ rest) := by
  simp [resolveWith, hc.ne_nil, hc.ne_here, hc.ne_up, h]

theorem lookupsWith_link (hc : Ordinary c)
    (h : d.find false (Trail.path ⟨q.rooted, c :: q.parts⟩) = .ok (x, .link target)) :
    d.lookupsWith onLinkLookups q (c :: rest) = Trail.path ⟨q.rooted, c :: q.parts⟩ ::
      onLinkLookups (if Path.isAbsolute target then ⟨true, []⟩ else q)
        (Path.pieces target ++ rest) := by
  simp [lookupsWith, hc.ne_nil, hc.ne_here, hc.ne_up, h]

theorem resolveWith_name (hc : Ordinary c)
    (h : d.find false (Trail.path ⟨q.rooted, c :: q.parts⟩) = .ok (x, n))
    (hlink : ∀ target, n ≠ .link target) (hgoes : n.isDir = true ∨ rest = []) :
    d.resolveWith onLink q (c :: rest) =
      d.resolveWith onLink ⟨q.rooted, c :: q.parts⟩ rest := by
  cases n with
  | link target => exact absurd rfl (hlink target)
  | dir _ _ => simp [resolveWith, hc.ne_nil, hc.ne_here, hc.ne_up, h, Node.isDir]
  | file _ _ _ =>
    have hrest : rest = [] := by simpa [Node.isDir] using hgoes
    simp [resolveWith, hc.ne_nil, hc.ne_here, hc.ne_up, h, hrest]

theorem lookupsWith_name (hc : Ordinary c)
    (h : d.find false (Trail.path ⟨q.rooted, c :: q.parts⟩) = .ok (x, n))
    (hlink : ∀ target, n ≠ .link target) (hgoes : n.isDir = true ∨ rest = []) :
    d.lookupsWith onLinkLookups q (c :: rest) = Trail.path ⟨q.rooted, c :: q.parts⟩ ::
      d.lookupsWith onLinkLookups ⟨q.rooted, c :: q.parts⟩ rest := by
  cases n with
  | link target => exact absurd rfl (hlink target)
  | dir _ _ => simp [lookupsWith, hc.ne_nil, hc.ne_here, hc.ne_up, h, Node.isDir]
  | file _ _ _ =>
    have hrest : rest = [] := by simpa [Node.isDir] using hgoes
    simp [lookupsWith, hc.ne_nil, hc.ne_here, hc.ne_up, h, hrest]

end Name

theorem resolveWith_of_long {d : Disk} {onLink : Trail → List Text → Option Trail}
    {onLinkLookups : Trail → List Text → List Text} {u : Text} (hlong : pathLimit ≤ u.length)
    (hlink : ∀ q rs, u ∈ onLinkLookups q rs → onLink q rs = none) (q : Trail) (rs : List Text)
    (h : u ∈ d.lookupsWith onLinkLookups q rs) : d.resolveWith onLink q rs = none := by
  induction rs generalizing q with
  | nil => simp [lookupsWith] at h
  | cons c rest ih =>
    unfold lookupsWith at h
    unfold resolveWith
    by_cases hempty : c = [] ∨ c = Path.here
    · rw [if_pos hempty] at h ⊢
      exact ih q h
    rw [if_neg hempty] at h ⊢
    by_cases hup : c = Path.up
    · rw [if_pos hup] at h ⊢
      exact ih q.up h
    rw [if_neg hup] at h ⊢
    dsimp only at h ⊢
    rcases List.mem_cons.mp h with rfl | h
    · obtain ⟨e, hfind⟩ := find_of_long d false hlong
      rw [hfind]
    · rcases hfind : d.find false (Trail.path ⟨q.rooted, c :: q.parts⟩) with e | ⟨x, n⟩
      · rfl
      · rw [hfind] at h
        cases n with
        | link target => exact hlink _ _ h
        | file _ _ _ =>
          dsimp only at h ⊢
          split at h
          · simp at h
          · rename_i hgoes
            rw [if_neg hgoes]
            exact ih _ h
        | dir _ _ =>
          dsimp only at h ⊢
          split at h
          · simp at h
          · rename_i hgoes
            rw [if_neg hgoes]
            exact ih _ h

theorem resolved?_of_long {d : Disk} {p : Text} (h : ¬ d.Resolvable p) : d.resolved? p = none := by
  unfold Resolvable lookedUp at h
  push Not at h
  obtain ⟨u, hu, hlong⟩ := h
  have hlinks : ∀ n q rs, u ∈ d.lookups n q rs → d.resolveLinks n q rs = none := by
    intro n
    induction n with
    | zero => exact fun q rs => resolveWith_of_long hlong (fun _ _ _ => rfl) q rs
    | succ n ih => exact fun q rs => resolveWith_of_long hlong ih q rs
  unfold resolved?
  rw [hlinks _ _ _ hu]
  rfl

/-! ### Resolving follows the walk -/

/-- The last part of a trail is the last component of a location. -/
def Ends (parts : List Text) (x : Location) : Prop :=
  ∃ c front rest, parts = c :: rest ∧ x = front ++ [c]

/-- There is something at a location, and a trail ends in its name unless it is a directory. -/
def Sure (d : Disk) (parts : List Text) (l : Location) : Prop :=
  ∃ n, d.node? l = some n ∧ (n.isDir = false → Ends parts l)

theorem Matches.eq_nil {rs : List Text} (h : Matches [] rs) : rs = [] := by
  cases h with
  | nil => rfl
  | skip hws _ => exact absurd rfl hws

/-- Some component is a name. -/
def Telling (ws : List Text) : Prop := ∃ c ∈ ws, c ≠ Path.here ∧ c ≠ Path.up

theorem Telling.of_cons {c : Text} {ws : List Text} (h : Telling (c :: ws))
    (hc : c = Path.here ∨ c = Path.up) : Telling ws := by
  obtain ⟨c', hmem, hhere, hup⟩ := h
  rcases List.mem_cons.mp hmem with rfl | hmem
  · rcases hc with hc | hc
    · exact absurd hc hhere
    · exact absurd hc hup
  · exact ⟨c', hmem, hhere, hup⟩

section Following

variable {d : Disk} {parts : List Text} {l x : Location} {n : Node}

/-- A directory is a sure place, whatever the trail. -/
theorem sure_of_dir {m : Nat} {t : Instant} (h : d.node? l = some (.dir m t)) : Sure d parts l :=
  ⟨_, h, by simp [Node.isDir]⟩

theorem Sure.up (h : Sure d parts l) (hsound : d.Sound) {there : Bool}
    (hl : d.footing l = .ok there) (parts' : List Text) : Sure d parts' l.dropLast := by
  obtain ⟨n, hn, _⟩ := h
  have hthere : there = true := by
    rw [← footing_eq_ok hl, hn]
    rfl
  obtain ⟨m, t, hdir⟩ := dir_of_footing (hthere ▸ hl)
  -- Above a directory there is a directory, and above the root is the root.
  induction l using List.reverseRecOn with
  | nil => exact sure_of_dir hdir
  | append_singleton front c _ =>
    rw [List.dropLast_concat]
    obtain ⟨m', t', habove⟩ := hsound front c _ hdir
    exact sure_of_dir habove

/-- Where a link is followed from is a directory. -/
theorem dir_of_link (hsound : d.Sound) (hl : d.footing l = .ok true) (target : Text) :
    ∃ m t, d.node? (if Path.isAbsolute target then [] else l) = some (.dir m t) := by
  obtain ⟨m, t, hdir⟩ := dir_of_footing hl
  by_cases habsolute : Path.isAbsolute target = true
  · rw [if_pos habsolute]
    by_cases hnil : l = []
    · exact ⟨m, t, hnil ▸ hdir⟩
    · exact hsound.dir_of_below (x := []) hnil hdir
  · rw [if_neg habsolute]
    exact ⟨m, t, hdir⟩

/-- Nothing comes after what is not a directory. -/
theorem eq_nil_of_walkWith {onLink : Location → List Text → Except Errno Place} {ws : List Text}
    (hl : d.node? l = some n) (hn : n.isDir = false)
    (h : d.walkWith true onLink l ws = .ok (.found x)) : ws = [] := by
  cases ws with
  | nil => rfl
  | cons c ws =>
    rw [walkWith_cons] at h
    cases n with
    | dir _ _ => simp [Node.isDir] at hn
    | file _ _ _ => simp [footing, hl] at h
    | link _ => simp [footing, hl] at h

/-- Where a walk leads to something that is not a directory, resolving what matches its
    components ends in the same name. -/
theorem resolveWith_of_walkWith (hsound : d.Sound) (hnamed : d.Named)
    (hx : d.node? x = some n) (hn : n.isDir = false)
    {onLink : Location → List Text → Except Errno Place}
    {onLink' : Trail → List Text → Option Trail}
    {onLinkLookups : Trail → List Text → List Text}
    (hend : ∀ l, onLink l [] = .ok (.found x) → l = x)
    (hlink : ∀ q l ws rs, Matches ws rs → Traces d q.rooted q.parts l → Sure d q.parts l →
      onLink l ws = .ok (.found x) → (∀ u ∈ onLinkLookups q rs, u.length < pathLimit) →
      ∃ q', onLink' q rs = some q' ∧ Ends q'.parts x)
    {ws rs : List Text} (hmatches : Matches ws rs) (q : Trail) (l : Location)
    (htraces : Traces d q.rooted q.parts l) (hsure : Sure d q.parts l ∨ Telling ws)
    (h : d.walkWith true onLink l ws = .ok (.found x))
    (hshort : ∀ u ∈ d.lookupsWith onLinkLookups q rs, u.length < pathLimit) :
    ∃ q', d.resolveWith onLink' q rs = some q' ∧ Ends q'.parts x := by
  induction hmatches generalizing q l with
  | nil =>
    obtain rfl : l = x := by simpa [walkWith] using h
    rcases hsure with ⟨n', hn', hends⟩ | ⟨c, hmem, _⟩
    · obtain rfl := Option.some.inj (hn'.symm.trans hx)
      exact ⟨q, rfl, hends hn⟩
    · simp at hmem
  | skip _ _ ih =>
    have hempty : ([] : Text) = [] ∨ ([] : Text) = Path.here := Or.inl rfl
    rw [lookupsWith, if_pos hempty] at hshort
    rw [resolveWith, if_pos hempty]
    exact ih q l htraces hsure h hshort
  | @stay ws rs _ ih =>
    have hstay : d.walkWith true onLink l ws = .ok (.found x) := by
      cases goes_of_walkWith h with
      | here _ h' => exact h'
      | _ hc => exact absurd rfl hc.ne_here
    exact ih q l htraces (hsure.imp_right fun ht => ht.of_cons (Or.inl rfl)) hstay hshort
  | @cons c ws rs _ hmatches ih =>
    -- A name that the walk looks up is found by the name of the trail.
    have hfound : ∀ n', LooksUp d l c → d.node? (l ++ [c]) = some n' →
        Ordinary c ∧ d.find false (Trail.path ⟨q.rooted, c :: q.parts⟩) = .ok (l ++ [c], n') := by
      intro n' hlooks hnode
      have hc := (hnamed _ _ _ hnode).1
      exact ⟨hc, htraces.find hnamed hlooks.footing hlooks.short hnode
        (hshort _ (mem_lookupsWith hc))⟩
    cases goes_of_walkWith h with
    | here hl h' =>
      have hempty : Path.here = [] ∨ Path.here = Path.here := Or.inr rfl
      rw [lookupsWith, if_pos hempty] at hshort
      rw [resolveWith, if_pos hempty]
      exact ih q l htraces (hsure.imp_right fun ht => ht.of_cons (Or.inl rfl)) h' hshort
    | up hl h' =>
      have hempty : ¬ (Path.up = [] ∨ Path.up = Path.here) := by decide
      rw [lookupsWith, if_neg hempty, if_pos rfl] at hshort
      rw [resolveWith, if_neg hempty, if_pos rfl]
      refine ih q.up l.dropLast (htraces.trail_up hl) ?_ h' hshort
      rcases hsure with hsure | htelling
      · exact Or.inl (hsure.up hsound hl _)
      · exact Or.inr (htelling.of_cons (Or.inr rfl))
    | @link _ target hlooks hnode _ h' =>
      obtain ⟨hc, hfind⟩ := hfound _ hlooks hnode
      rw [lookupsWith_link hc hfind] at hshort
      rw [resolveWith_link hc hfind]
      have hrest := (List.forall_mem_cons.mp hshort).2
      obtain ⟨m, t, hdir⟩ := dir_of_link hsound hlooks.footing target
      by_cases hnil : steps target ++ ws = []
      · -- The walk would end in a directory.
        rw [hnil] at h'
        rw [hend _ h', hx] at hdir
        obtain rfl := Option.some.inj hdir
        simp [Node.isDir] at hn
      · have hmatches' := Matches.of_target hnil hmatches
        by_cases habsolute : Path.isAbsolute target = true
        · rw [if_pos habsolute] at h' hrest hdir ⊢
          exact hlink _ _ _ _ hmatches' (.start rfl) (sure_of_dir hdir) h' hrest
        · rw [if_neg habsolute] at h' hrest hdir ⊢
          exact hlink _ _ _ _ hmatches' htraces (sure_of_dir hdir) h' hrest
    | @down _ n' hlooks hnode hnolink h' =>
      obtain ⟨hc, hfind⟩ := hfound _ hlooks hnode
      have hgoes : n'.isDir = true ∨ rs = [] := by
        by_cases hdir : n'.isDir = true
        · exact Or.inl hdir
        · have hws := eq_nil_of_walkWith hnode (by simpa using hdir) h'
          rw [hws] at hmatches
          exact Or.inr hmatches.eq_nil
      rw [lookupsWith_name hc hfind hnolink hgoes] at hshort
      rw [resolveWith_name hc hfind hnolink hgoes]
      exact ih ⟨q.rooted, c :: q.parts⟩ (l ++ [c])
        (htraces.down hlooks.footing hlooks.short hnode hnolink)
        (Or.inl ⟨n', hnode, fun _ => ⟨c, l, q.parts, rfl, rfl⟩⟩) h'
        (List.forall_mem_cons.mp hshort).2
    | last _ _ _ hfollow _ => simp at hfollow
    | free _ _ _ hr => simp at hr

theorem resolveLinks_of_walk (hsound : d.Sound) (hnamed : d.Named) (hx : d.node? x = some n)
    (hn : n.isDir = false) {k links : Nat} (hk : k ≤ links) {ws rs : List Text}
    (hmatches : Matches ws rs) (q : Trail) (l : Location)
    (htraces : Traces d q.rooted q.parts l) (hsure : Sure d q.parts l ∨ Telling ws)
    (h : d.walk true k l ws = .ok (.found x))
    (hshort : ∀ u ∈ d.lookups links q rs, u.length < pathLimit) :
    ∃ q', d.resolveLinks links q rs = some q' ∧ Ends q'.parts x := by
  induction k generalizing links ws rs q l with
  | zero =>
    -- A walk that may follow no link leads to nothing if it meets one.
    cases links with
    | zero =>
      exact resolveWith_of_walkWith hsound hnamed hx hn (by simp) (by simp) hmatches q l htraces
        hsure h hshort
    | succ links =>
      exact resolveWith_of_walkWith hsound hnamed hx hn (by simp) (by simp) hmatches q l htraces
        hsure h hshort
  | succ k ih =>
    obtain ⟨links, rfl⟩ : ∃ links', links = links' + 1 := ⟨links - 1, by omega⟩
    refine resolveWith_of_walkWith hsound hnamed hx hn ?_ ?_ hmatches q l htraces hsure h hshort
    · intro l hl
      cases k with
      | zero => simpa [walk, walkWith] using hl
      | succ k => simpa [walk, walkWith] using hl
    · intro q l ws rs hmatches htraces hsure h hshort
      exact ih (by omega) hmatches q l htraces (Or.inl hsure) h hshort

end Following

/-- Where a path leads to something that is not a directory, its resolved name ends in the last
    component of the location. -/
theorem resolved?_of_find {d : Disk} (hsound : d.Sound) (hnamed : d.Named) {p : Text}
    {x : Location} {n : Node} (htelling : Telling (steps p))
    (hfind : d.find true p = .ok (x, n)) (hn : n.isDir = false) (hshort : d.Resolvable p) :
    ∃ r, d.resolved? p = some r ∧ x.getLast? = some (Path.base r) := by
  obtain ⟨hplace, hx⟩ := find_eq_ok.mp hfind
  unfold place at hplace
  cases hstart : d.start p with
  | error e => simp [hstart] at hplace
  | ok l =>
    rw [hstart] at hplace
    have horigin : d.origin (Path.isAbsolute p) = some l := by
      unfold origin
      unfold start at hstart
      split_ifs at hstart ⊢
      · exact congrArg some (Except.ok.inj hstart)
      · split at hstart
        · rename_i hcwd
          rw [hcwd, Except.ok.inj hstart]
        · simp at hstart
    have hne : steps p ≠ [] := by
      obtain ⟨c, hc, _⟩ := htelling
      exact List.ne_nil_of_mem hc
    obtain ⟨q, hq, c, front, rest, hparts, rfl⟩ := resolveLinks_of_walk hsound hnamed hx hn
      (show linkLimit ≤ replacementLimit by decide) (Matches.of_steps hne) ⟨Path.isAbsolute p, []⟩ l
      (.start horigin) (Or.inr htelling) hplace hshort
    refine ⟨Path.clean q.path, ?_, ?_⟩
    · unfold resolved?
      rw [hq]
      rfl
    · obtain ⟨hc, _⟩ := hnamed _ _ _ hx
      obtain ⟨lead, hlead, hend⟩ := path_cons q.rooted c rest
      rw [← hparts] at hlead
      have hlead : q.path = lead ++ c := hlead
      rw [hlead, Path.base_clean hc hend]
      simp

end Disk

end Gauntlet
