import Gauntlet.Proofs.Disk
import Gauntlet.Proofs.PlainPath

/-! # Where plain names lead

  Where no symbolic link is in the way, a plain name leads to the location that its components
  spell out, or to a free name in a directory that is there, or nowhere (`place_plain`). So
  the operations that are given a plain name act on its own location (`mkdir_plain`,
  `createNew_plain`).
-/

namespace Gauntlet.Disk

open Gauntlet.Path (Plain Ordinary)

/-- No symbolic link is met on the way to a location, nor at its end if that is followed. -/
def Straight (d : Disk) (follow : Bool) (l : Location) : Prop :=
  ∀ k, k <+: l → (k ≠ l ∨ follow = true) → ∀ target, d.node? k ≠ some (.link target)

theorem steps_absolute {l : Location} (h : Plain l) : steps (Path.absolute l) = l := by
  rw [steps, Path.filter_pieces_absolute h]
  refine if_neg ?_
  rintro ⟨hne, hlast⟩
  rw [← List.dropLast_concat_getLast hne] at hlast
  exact Path.getLast?_absolute_concat l.dropLast (h _ (List.getLast_mem hne)) hlast

/-- An absolute name starts from the root directory, unless it is refused by its form. -/
theorem start_absolute {d : Disk} {l x : Location} (h : d.start (Path.absolute l) = .ok x) :
    x = [] := by
  unfold start at h
  split_ifs at h <;> simp_all [Path.isAbsolute_absolute]

/-- What can become of a walk over components without links: it ends at their own location,
    at a free name there, or with an error. -/
inductive Leads (d : Disk) (l : Location) (cs : List Text) : Except Errno Place → Prop where
  | found (hend : cs = [] ∨ (d.node? (l ++ cs)).isSome = true) : Leads d l cs (.ok (.found (l ++ cs)))
  | free {front : List Text} {c : Text} (hcs : cs = front ++ [c]) (hend : d.node? (l ++ cs) = none)
      (hway : ∀ k, k <+: front → d.footing (l ++ k) = .ok true)
      (hshort : ∀ c ∈ cs, c.length ≤ nameLimit) : Leads d l cs (.ok (.free (l ++ front) c))
  | nowhere (e : Errno) : Leads d l cs (.error e)

theorem Leads.cons {d : Disk} {l : Location} {c : Text} {cs : List Text} {r : Except Errno Place}
    (h : Leads d (l ++ [c]) cs r) (hl : d.footing l = .ok true) (hc : c.length ≤ nameLimit)
    (hthere : (d.node? (l ++ [c])).isSome = true) : Leads d l (c :: cs) r := by
  have hnext : ∀ k, l ++ [c] ++ k = l ++ c :: k := by simp
  cases h with
  | found hend =>
    rw [hnext]
    refine .found (Or.inr ?_)
    rcases hend with rfl | hend
    · exact hthere
    · rwa [hnext] at hend
  | @free front c' hcs hend hway hshort =>
    rw [hnext]
    refine .free (by rw [hcs]; rfl) (by rwa [hnext] at hend) ?_ ?_
    · intro k hk
      rcases List.prefix_cons_iff.mp hk with rfl | ⟨k', rfl, hk'⟩
      · simpa using hl
      · rw [← hnext]
        exact hway k' hk'
    · simpa [hc] using hshort
  | nowhere e => exact .nowhere e

/-- Where no link is in the way, a walk over ordinary components goes by them. -/
theorem walkWith_plain (d : Disk) (follow : Bool)
    (onLink : Location → List Text → Except Errno Place) {l : Location} {cs : List Text}
    (hcs : Plain cs)
    (hway : ∀ k, k <+: cs → k ≠ [] → (k ≠ cs ∨ follow = true) →
      ∀ target, d.node? (l ++ k) ≠ some (.link target)) :
    Leads d l cs (d.walkWith follow onLink l cs) := by
  induction cs generalizing l with
  | nil =>
    have := @Leads.found d l [] (Or.inl rfl)
    simpa [walkWith] using this
  | cons c rest ih =>
    have hc := hcs c List.mem_cons_self
    rw [walkWith_cons]
    cases hl : d.footing l with
    | error e => exact .nowhere e
    | ok there =>
      simp only [hc.ne_here, hc.ne_up, if_false]
      cases there with
      | false => exact .nowhere .missing
      | true =>
        simp only [Bool.true_eq_false, if_false]
        by_cases hlong : nameLimit < c.length
        · rw [if_pos hlong]
          exact .nowhere .nameTooLong
        · rw [if_neg hlong]
          have hshort : c.length ≤ nameLimit := by omega
          -- The rest is walked from the location below, if there is something.
          have hbelow : (d.node? (l ++ [c])).isSome = true →
              Leads d l (c :: rest) (d.walkWith follow onLink (l ++ [c]) rest) := by
            refine fun hthere => (ih ?_ ?_).cons hl hshort hthere
            · exact fun c' hc' => hcs c' (List.mem_cons_of_mem c hc')
            · intro k hk hne hend target
              rw [List.append_assoc]
              exact hway (c :: k) (List.cons_prefix_cons.mpr ⟨rfl, hk⟩) (by simp)
                (by simpa using hend) target
          rcases hnode : d.node? (l ++ [c]) with _ | (⟨data, m, t⟩ | ⟨m, t⟩ | target)
          · by_cases hrest : rest = []
            · subst hrest
              have := @Leads.free d l [c] [] c rfl hnode
                (fun k hk => by simpa [List.prefix_nil.mp hk] using hl) (by simpa using hshort)
              simpa using this
            · simp only [hrest, if_false]
              exact .nowhere .missing
          · exact hbelow (by simp [hnode])
          · exact hbelow (by simp [hnode])
          · by_cases hlast : rest = [] ∧ follow = false
            · obtain ⟨rfl, rfl⟩ := hlast
              exact .found (Or.inr (by simp [hnode]))
            · -- A link here would have to be followed, and there is none on the way.
              refine absurd hnode (hway [c] ?_ (by simp) ?_ target)
              · exact List.cons_prefix_cons.mpr ⟨rfl, List.nil_prefix⟩
              · cases hfollow : follow with
                | true => exact Or.inr rfl
                | false => exact Or.inl (by simpa [hfollow, eq_comm] using hlast)

theorem place_plain {d : Disk} {follow : Bool} {l : Location} (hl : Plain l)
    (hway : d.Straight follow l) : Leads d [] l (d.place follow (Path.absolute l)) := by
  unfold place
  cases hstart : d.start (Path.absolute l) with
  | error e => exact .nowhere e
  | ok x =>
    obtain rfl := start_absolute hstart
    rw [steps_absolute hl]
    refine d.walkWith_plain follow _ hl ?_
    intro k hk _ hend target
    exact hway k hk hend target

theorem find_plain {d : Disk} {follow : Bool} {l x : Location} {n : Node} (hl : Plain l)
    (hway : d.Straight follow l) (h : d.find follow (Path.absolute l) = .ok (x, n)) :
    x = l ∧ d.node? l = some n := by
  have hleads := place_plain hl hway
  unfold find at h
  cases hp : d.place follow (Path.absolute l) with
  | error e => simp [hp] at h
  | ok place =>
    rw [hp] at h hleads
    cases hleads with
    | found _ =>
      dsimp only at h
      split at h
      · rename_i hn
        simp only [Except.ok.injEq, Prod.mk.injEq] at h
        exact ⟨h.1.symm, h.2 ▸ hn⟩
      · simp at h
    | free _ _ _ _ => simp at h

theorem dir_of_footing {d : Disk} {l : Location} (h : d.footing l = .ok true) :
    ∃ m t, d.node? l = some (.dir m t) := by
  unfold footing at h
  split at h
  · exact ⟨_, _, ‹_›⟩
  · simp at h
  · simp at h

/-- A walk down directories that can all be searched reaches the last of them. -/
theorem walkWith_down {d : Disk} (onLink : Location → List Text → Except Errno Place)
    {l : Location} {cs : List Text} (hcs : Plain cs)
    (hway : ∀ k, k <+: cs → d.footing (l ++ k) = .ok true)
    (hshort : ∀ c ∈ cs, c.length ≤ nameLimit) :
    d.walkWith true onLink l (cs ++ [Path.here]) = .ok (.found (l ++ cs)) := by
  induction cs generalizing l with
  | nil =>
    have hl : d.footing l = .ok true := by simpa using hway [] List.nil_prefix
    rw [List.nil_append, walkWith_cons, hl]
    simp [walkWith]
  | cons c cs ih =>
    have hc := hcs c List.mem_cons_self
    have hl : d.footing l = .ok true := by simpa using hway [] List.nil_prefix
    have hnext : d.footing (l ++ [c]) = .ok true :=
      hway [c] (List.cons_prefix_cons.mpr ⟨rfl, List.nil_prefix⟩)
    obtain ⟨m, t, hnode⟩ := dir_of_footing hnext
    have hlong : ¬ nameLimit < c.length := Nat.not_lt.mpr (hshort c List.mem_cons_self)
    rw [List.cons_append, walkWith_cons, hl]
    simp only [hc.ne_here, hc.ne_up, Bool.true_eq_false, if_false, hlong, hnode]
    have hbelow := ih (l := l ++ [c]) (fun c' hc' => hcs c' (List.mem_cons_of_mem c hc'))
      (fun k hk => by
        rw [List.append_assoc]
        exact hway (c :: k) (List.cons_prefix_cons.mpr ⟨rfl, hk⟩))
      (fun c' hc' => hshort c' (List.mem_cons_of_mem c hc'))
    rw [hbelow, List.append_assoc]
    rfl

/-! ### Locations without links -/

/-- There is no symbolic link at or below a location, nor on the way to it. -/
def Unlinked (root : Location) (d : Disk) : Prop :=
  ∀ l, (l <+: root ∨ root <+: l) → ∀ target, d.node? l ≠ some (.link target)

theorem unlinked_iff (root : Location) (d : Disk) : Unlinked root d ↔ ∀ p ∈ d.nodes.pairs,
    (p.1 <+: root ∨ root <+: p.1) → (p.2.isDir || p.2.isFile) = true := by
  constructor
  · rintro h ⟨l, n⟩ hmem hl
    have hn := (SortedMap.mem_pairs_iff d.nodes _ n).mp hmem
    cases n with
    | link target => exact absurd hn (h l hl target)
    | file _ _ _ => rfl
    | dir _ _ => rfl
  · intro h l hl target hlink
    have := h (l, .link target) ((SortedMap.mem_pairs_iff d.nodes _ _).mpr hlink) hl
    simp [Node.isDir, Node.isFile] at this

instance (root : Location) (d : Disk) : Decidable (Unlinked root d) :=
  decidable_of_iff _ (unlinked_iff root d).symm

/-- Locations on the way to one that is on the way to, or below, another are so too. -/
theorem onWay_of_above {root l k : Location} (hl : l <+: root ∨ root <+: l) (hk : k <+: l) :
    k <+: root ∨ root <+: k := by
  rcases hl with hl | hl
  · exact Or.inl (hk.trans hl)
  · exact List.prefix_or_prefix_of_prefix hk hl

theorem Unlinked.straight {root l : Location} {d : Disk} (h : Unlinked root d)
    (hl : l <+: root ∨ root <+: l) (follow : Bool) : d.Straight follow l :=
  fun k hk _ => h k (onWay_of_above hl hk)

/-! ### Names of directories -/

/-- The path that is looked up for a new directory. -/
theorem bare_absolute {l : Location} (hl : Plain l) :
    (if Path.withoutTrailing (Path.absolute l) = [] then Path.absolute l
      else Path.withoutTrailing (Path.absolute l)) = Path.absolute l := by
  cases l using List.reverseRecOn with
  | nil => rfl
  | append_singleton dir name =>
    have hbare : Path.withoutTrailing (Path.absolute (dir ++ [name])) =
        Path.absolute (dir ++ [name]) := by
      rw [Path.absolute_concat, Path.withoutTrailing_append (hl name (by simp))]
    rw [hbare, ite_self]

/-- The path of the directory above, as far as there is one. -/
theorem container?_absolute {l : Location} (hl : Plain l) :
    container? (Path.absolute l) = none ∨
      container? (Path.absolute l) = some (Path.absolute l.dropLast) := by
  cases l using List.reverseRecOn with
  | nil => exact Or.inl rfl
  | append_singleton dir name =>
    have hname := hl name (by simp)
    have hlead : ((Path.withoutTrailing (Path.absolute (dir ++ [name]))).reverse.dropWhile
        (· ≠ Path.slash)).reverse.dropLast = if dir = [] then [] else Path.absolute dir := by
      rw [Path.absolute_concat, Path.withoutTrailing_append hname,
        Path.upToSlash_append hname.noSlash, List.dropLast_concat]
    rw [List.dropLast_concat]
    simp only [container?, hlead]
    by_cases hdir : dir = []
    · simp [hdir]
    · have hne : Path.absolute dir ≠ [] := by simp [Path.absolute]
      simp [hdir, hne]

/-! ### New directories -/

/-- A directory that is made under a plain name is made at its own location, which was free. -/
theorem mkdir_plain {d d' : Disk} {l : Location} {mode : Nat} (hl : Plain l)
    (hway : d.Straight false l) (h : d.mkdir (Path.absolute l) mode = .ok d') :
    ∃ dir name, l = dir ++ [name] ∧ d.node? (dir ++ [name]) = none ∧
      (∃ m t, d.node? dir = some (.dir m t)) ∧
      d' = (d.put (dir ++ [name]) (.dir (d.created mode) d.now)).touchDir dir := by
  have hleads := place_plain hl hway
  unfold mkdir at h
  dsimp only at h
  rw [bare_absolute hl] at h
  cases hp : d.place false (Path.absolute l) with
  | error e => simp [hp] at h
  | ok place =>
    rw [hp] at h hleads
    cases hleads with
    | found _ => simp at h
    | @free dir name hcs hend hfooting _ =>
      simp only [List.nil_append] at h hend hfooting
      split at h
      · exact ⟨dir, name, hcs, hcs ▸ hend, dir_of_footing (hfooting dir (List.prefix_refl dir)),
          (Except.ok.inj h).symm⟩
      · simp at h

/-- What is kept when one of the directories on the way to a location is made, is kept when
    all that are missing are made. -/
theorem mkdirs_induction {P : Disk → Prop} {l : Location} {mode : Nat} (hl : Plain l)
    (hstep : ∀ d k, k <+: l → Plain k → P d → P (d.mkdirUnlessThere (Path.absolute k) mode).1)
    {d : Disk} (h : P d) : P (d.mkdirs (Path.absolute l) mode).1 := by
  suffices hwithin : ∀ fuel k d, k <+: l → Plain k → P d →
      P (mkdirsWithin fuel d (Path.absolute k) mode).1 from hwithin _ l d List.prefix_rfl hl h
  intro fuel
  induction fuel with
  | zero => exact fun _ _ _ _ h => h
  | succ fuel ih =>
    intro k d hk hplain h
    unfold mkdirsWithin
    split
    · exact h
    · rcases container?_absolute hplain with hnone | hsome
      · rw [hnone]
        exact hstep d k hk hplain h
      · -- The directories above come first.
        rw [hsome]
        have habove := ih k.dropLast d ((List.dropLast_prefix k).trans hk) hplain.dropLast h
        dsimp only
        split
        · rename_i hmade
          rw [hmade] at habove
          exact habove
        · rename_i hmade
          rw [hmade] at habove
          exact hstep _ k hk hplain habove

/-! ### New files -/

/-- What is known once a file has been made under a plain name. -/
structure Made (d : Disk) (dir : Location) (name : Text) (d' : Disk) : Prop where
  vacant : d.node? (dir ++ [name]) = none
  footing : ∀ k, k <+: dir → d.footing k = .ok true
  short : ∀ c ∈ dir ++ [name], c.length ≤ nameLimit
  start : d.start (Path.absolute (dir ++ [name])) = .ok []
  changeable : d.changeable dir = true
  after : d' = (d.put (dir ++ [name]) (.file [] 0o600 d.now)).touchDir dir

/-- A file that is made under a plain name is made at its own location. -/
theorem createNew_plain {d d' : Disk} {dir x : Location} {name : Text}
    (hl : Plain (dir ++ [name])) (hway : d.Straight true dir)
    (h : d.createNew (Path.absolute (dir ++ [name])) = .ok (x, d')) :
    x = dir ++ [name] ∧ Made d dir name d' := by
  have hstraight : d.Straight false (dir ++ [name]) := by
    intro k hk hend target
    have hne : k ≠ dir ++ [name] := by simpa using hend
    rcases List.prefix_concat_iff.mp hk with rfl | hk
    · exact absurd rfl hne
    · exact hway k hk (Or.inr rfl) target
  have hleads := place_plain hl hstraight
  unfold createNew at h
  cases hp : d.place false (Path.absolute (dir ++ [name])) with
  | error e => simp [hp] at h
  | ok place =>
    rw [hp] at h hleads
    cases hleads with
    | found _ => simp at h
    | @free front c hcs hend hfooting hshort =>
      obtain ⟨rfl, hc⟩ := List.append_inj' hcs rfl
      obtain rfl : name = c := by simpa using hc
      simp only [List.nil_append] at h hend hfooting
      split at h
      · rename_i hchange
        simp only [Except.ok.injEq, Prod.mk.injEq] at h
        refine ⟨h.1.symm, hend, hfooting, hshort, ?_, hchange, h.2.symm⟩
        -- The name led somewhere, so it started from the root directory.
        unfold place at hp
        cases hstart : d.start (Path.absolute (dir ++ [name])) with
        | error e => simp [hstart] at hp
        | ok y => rw [start_absolute hstart]
      · simp at h

end Gauntlet.Disk
