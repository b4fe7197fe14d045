import Gauntlet.Proofs.Rollback

/-! # Unpacking brings a directory up to date

  Several entries of an archive can name one target, since `a`, `./a` and `b/../a` are the same
  path. They are taken in order, and each of them is written if the target is missing or
  strictly older. So the target ends up as the newest of the entries, or as what was there if
  none of them is newer (`Fresh`), and among equally new ones the first in the archive counts.

  - `Seat`: where a destination is. The way to it may lead through links, but there are none
    beyond, so that each target has a location of its own which does not depend on the disk.
  - Entries keep the seat and take nothing away (`Unpacked.seat`, `Unpacked.grows`), and so a
    target is found at its location from the first entry that names it on
    (`Unpacked.tracked`).
  - Without a seat nothing can be written (`Unpacked.eq_of_seatless`).
-/

namespace Gauntlet

/-! ### The order of time -/

namespace Instant

variable {a b c : Instant}

theorem not_before_self (a : Instant) : a.before a = false := by simp [before]

theorem before_trans (h : a.before b = true) (h' : b.before c = true) : a.before c = true := by
  simp only [before, Bool.or_eq_true, Bool.and_eq_true, decide_eq_true_eq, beq_iff_eq] at *
  omega

/-- What is not after something is before what that is before. -/
theorem before_of_not_before (h : a.before b = false) (h' : a.before c = true) :
    b.before c = true := by
  simp only [before, Bool.or_eq_true, Bool.and_eq_true, decide_eq_true_eq, beq_iff_eq,
    Bool.or_eq_false_iff, Bool.and_eq_false_iff, decide_eq_false_iff_not, beq_eq_false_iff_ne] at *
  omega

theorem not_before_trans (h : a.before b = false) (h' : b.before c = false) :
    a.before c = false := by
  cases hac : a.before c with
  | false => rfl
  | true =>
    have hbc := before_of_not_before h hac
    rw [hbc] at h'
    exact h'

end Instant

namespace Disk

/-- What a path leads to, if anything. -/
def found? (d : Disk) (p : Text) : Option Node := (d.find true p).toOption.map Prod.snd

theorem found?_eq_some {d : Disk} {p : Text} {n : Node} :
    d.found? p = some n ↔ ∃ x, d.find true p = .ok (x, n) := by
  simp [found?, toOption_eq_some_iff]

/-- A directory that is there need not be made. -/
theorem mkdirs_of_found {d : Disk} {p : Text} {x : Location} {m : Nat} {t : Instant}
    (h : d.find true p = .ok (x, .dir m t)) (mode : Nat) : d.mkdirs p mode = (d, none) := by
  unfold mkdirs mkdirsWithin
  simp [stat, h, Except.mapError, Node.isDir]

theorem absolute_grown {d d' : Disk} (hgrows : Grows d d') {p root : Text}
    (h : d.absolute p = .ok root) : d'.absolute p = .ok root := by
  unfold absolute workingDir at h ⊢
  split_ifs at h ⊢
  · exact h
  · rw [← hgrows.cwd]
    cases hcwd : d.cwd with
    | none => simp [hcwd] at h
    | some l =>
      rw [hcwd] at h
      by_cases hl : (d.node? l).isSome = true
      · have hl' : (d'.node? l).isSome = true := (hgrows.node l).isSome hl
        simpa [Option.filter, hl, hl'] using h
      · simp [Option.filter, hl] at h

end Disk

namespace Archive

open Gauntlet.Path (Plain Ordinary)
open Disk (Enters Located Furnishes Roomier Grows Grown SameNode)

/-! ### The newest entry -/

/-- An entry is a regular file whose target is a path. -/
def names (root t : Text) (e : Entry) : Bool :=
  e.kind = .regular && (target root e.name).toOption = some t

theorem names_iff {root t : Text} {e : Entry} :
    names root t e = true ↔ e.kind = .regular ∧ target root e.name = .ok t := by
  simp [names, toOption_eq_some_iff]

/-- The first among the entries with the latest time: those before it are strictly older, and
    those after it are not newer. -/
def IsNewest (newest : Entry) (es : List Entry) : Prop :=
  ∃ before after, es = before ++ newest :: after ∧
    (∀ e ∈ before, e.modified.before newest.modified = true) ∧
    ∀ e ∈ after, newest.modified.before e.modified = false

namespace IsNewest

variable {newest e : Entry} {es : List Entry}

theorem singleton (e : Entry) : IsNewest e [e] := ⟨[], [], rfl, by simp, by simp⟩

theorem not_before (h : IsNewest newest es) (he : e ∈ es) :
    newest.modified.before e.modified = false := by
  obtain ⟨before, after, rfl, hbefore, hafter⟩ := h
  rcases List.mem_append.mp he with he | he
  · -- An older entry is not newer.
    cases hnewer : newest.modified.before e.modified with
    | false => rfl
    | true =>
      have hself := Instant.before_trans (hbefore e he) hnewer
      rw [Instant.not_before_self] at hself
      exact hself.symm
  · rcases List.mem_cons.mp he with rfl | he
    · exact Instant.not_before_self _
    · exact hafter e he

theorem concat_older (h : IsNewest newest es) (he : newest.modified.before e.modified = false) :
    IsNewest newest (es ++ [e]) := by
  obtain ⟨before, after, rfl, hbefore, hafter⟩ := h
  refine ⟨before, after ++ [e], by simp, hbefore, fun e' he' => ?_⟩
  rcases List.mem_append.mp he' with he' | he'
  · exact hafter e' he'
  · rw [List.mem_singleton.mp he']
    exact he

theorem concat_newer (h : IsNewest newest es) (he : newest.modified.before e.modified = true) :
    IsNewest e (es ++ [e]) :=
  ⟨es, [], rfl, fun _ he' => Instant.before_of_not_before (h.not_before he') he, by simp⟩

end IsNewest

/-! ### What becomes of a target -/

/-- What becomes of a node when entries that name it are unpacked. If it is not older than the
    newest of them it stays, and else it is written from that one. -/
def Fresh (archive image : Text) (old : Option Node) (new : Node) (es : List Entry) : Prop :=
  ∃ newest, IsNewest newest es ∧
    ((old = some new ∧ new.modified.before newest.modified = false) ∨
      ((∀ n, old = some n → n.modified.before newest.modified = true) ∧
        ∃ data, newest.opened archive image = .ok (.ok data) ∧
          new = .file data newest.fileMode newest.modified))

namespace Fresh

variable {archive image : Text} {old : Option Node} {n : Node} {es : List Entry} {e : Entry}

theorem first_kept (h : n.modified.before e.modified = false) : Fresh archive image (some n) n [e] :=
  ⟨e, IsNewest.singleton e, Or.inl ⟨rfl, h⟩⟩

theorem first_written {data : Text} (h : ∀ n, old = some n → n.modified.before e.modified = true)
    (hopened : e.opened archive image = .ok (.ok data)) :
    Fresh archive image old (.file data e.fileMode e.modified) [e] :=
  ⟨e, IsNewest.singleton e, Or.inr ⟨h, data, hopened, rfl⟩⟩

/-- What is there is not older than any of the entries. -/
theorem not_before (h : Fresh archive image old n es) (he : e ∈ es) :
    n.modified.before e.modified = false := by
  obtain ⟨newest, hnewest, ⟨_, hkept⟩ | ⟨_, data, _, rfl⟩⟩ := h
  · exact Instant.not_before_trans hkept (hnewest.not_before he)
  · exact hnewest.not_before he

theorem kept (h : Fresh archive image old n es) (he : n.modified.before e.modified = false) :
    Fresh archive image old n (es ++ [e]) := by
  obtain ⟨newest, hnewest, ⟨hold, hkept⟩ | ⟨hold, data, hopened, rfl⟩⟩ := h
  · by_cases hnewer : newest.modified.before e.modified = true
    · exact ⟨e, hnewest.concat_newer hnewer, Or.inl ⟨hold, he⟩⟩
    · have holder : newest.modified.before e.modified = false := by simpa using hnewer
      exact ⟨newest, hnewest.concat_older holder, Or.inl ⟨hold, hkept⟩⟩
  · exact ⟨newest, hnewest.concat_older he, Or.inr ⟨hold, data, hopened, rfl⟩⟩

theorem written (h : Fresh archive image old n es) (he : n.modified.before e.modified = true)
    {data : Text} (hopened : e.opened archive image = .ok (.ok data)) :
    Fresh archive image old (.file data e.fileMode e.modified) (es ++ [e]) := by
  obtain ⟨newest, hnewest, ⟨hold, hkept⟩ | ⟨hold, data', _, rfl⟩⟩ := h
  · refine ⟨e, hnewest.concat_newer (Instant.before_of_not_before hkept he), Or.inr ⟨?_, data, hopened, rfl⟩⟩
    intro n' hn'
    obtain rfl : n = n' := Option.some.inj (hold.symm.trans hn')
    exact he
  · exact ⟨e, hnewest.concat_newer he,
      Or.inr ⟨fun n' hn' => Instant.before_trans (hold n' hn') he, data, hopened, rfl⟩⟩

theorem of_kept (hes : es ≠ []) (h : ∀ e ∈ es, n.modified.before e.modified = false) :
    Fresh archive image (some n) n es := by
  induction es using List.reverseRecOn with
  | nil => exact absurd rfl hes
  | append_singleton es e ih =>
    have he := h e (by simp)
    by_cases hnil : es = []
    · rw [hnil, List.nil_append]
      exact first_kept he
    · exact (ih hnil fun e' he' => h e' (List.mem_append_left _ he')).kept he

end Fresh

/-! ### The seat of a destination -/

/-- The tree at a destination has no symbolic links. The way to it may lead through links, and
    the destination itself may be a link to a directory. -/
structure Linkless (d : Disk) (root : Text) : Prop where
  below : ∀ x n, d.find true root = .ok (x, n) → ∀ k link, d.node? (x ++ k) ≠ some (.link link)
  itself : ∀ x link, d.find false root = .ok (x, .link link) →
    ∃ y m t, d.find true root = .ok (y, .dir m t)

/-- Where a destination is: the front of its path leads to a directory, and from there on there
    are no links, as far as anything is there. -/
structure Seat (d : Disk) (root way rest : List Text) (base : Location) : Prop where
  split : root = way ++ rest
  enters : Enters d way base
  unlinked : ∀ k, k ≠ [] → (k <+: rest ∨ rest <+: k) →
    ∀ link, d.node? (base ++ k) ≠ some (.link link)

namespace Seat

variable {d : Disk} {root way rest more : List Text} {base : Location}

/-- A destination that is there as a directory is its own seat. -/
theorem of_enters (hplain : Plain root) (hlinks : Linkless d (Path.absolute root))
    (hstart : d.start (Path.absolute root) = .ok []) (h : Enters d root base) :
    Seat d root root [] base := by
  refine ⟨(List.append_nil root).symm, h, fun k _ _ link => ?_⟩
  obtain ⟨m, t, hdir⟩ := h.dir
  have hfind : d.find true (Path.absolute root) = .ok (base, .dir m t) :=
    Disk.find_eq_ok.mpr ⟨h.place_eq hplain hstart, hdir⟩
  exact hlinks.below _ _ hfind k link

/-- Where directories are missing on the way to a path below the destination, there is a seat:
    they are missing below it or on the way to it. -/
theorem of_vacant {front made last : List Text} (hsound : d.Sound) (hplain : Plain (root ++ more))
    (hlinks : Linkless d (Path.absolute root)) (hstart : d.start (Path.absolute root) = .ok [])
    (hcs : root ++ more = front ++ made ++ last) (hmade : made ≠ []) (henters : Enters d front base)
    (hvacant : ∀ k, k ≠ [] → k <+: made → d.node? (base ++ k) = none) :
    ∃ way rest base, Seat d root way rest base := by
  have hroot : Plain root := hplain.sublist (List.sublist_append_left root more)
  have hroot' : root <+: front ++ made ++ last := hcs ▸ List.prefix_append root more
  have hfront' : front <+: front ++ made ++ last := by
    rw [List.append_assoc]
    exact List.prefix_append front _
  rcases List.prefix_or_prefix_of_prefix hroot' hfront' with ⟨j, rfl⟩ | ⟨j, rfl⟩
  · -- The missing directories are below the destination.
    have hj : Plain j := by
      intro c hc
      refine hplain c ?_
      rw [hcs]
      simp [hc]
    obtain ⟨x, hx⟩ := henters.front hj
    exact ⟨root, [], x, of_enters hroot hlinks hstart hx⟩
  · by_cases hj : j = []
    · subst hj
      rw [List.append_nil] at hroot hlinks hstart ⊢
      exact ⟨front, [], base, of_enters hroot hlinks hstart henters⟩
    · -- The destination is missing, so that there is nothing below it.
      refine ⟨front, j, base, rfl, henters, fun k hk hway link => ?_⟩
      obtain ⟨c, j', rfl⟩ := List.exists_cons_of_ne_nil hj
      obtain ⟨c', made', rfl⟩ := List.exists_cons_of_ne_nil hmade
      obtain rfl : c = c' := by
        simp only [List.append_assoc, List.cons_append] at hcs
        exact (List.cons.inj (List.append_cancel_left hcs)).1
      obtain ⟨k', rfl⟩ : ∃ k', k = c :: k' := by
        rcases hway with hway | hway
        · obtain ⟨c'', k', rfl⟩ := List.exists_cons_of_ne_nil hk
          exact ⟨k', by rw [(List.cons_prefix_cons.mp hway).1]⟩
        · obtain ⟨k', rfl⟩ := hway
          exact ⟨_, rfl⟩
      have hnone := hvacant [c] (by simp) (List.cons_prefix_cons.mpr ⟨rfl, List.nil_prefix⟩)
      have hbelow := hsound.vacant_below hnone k'
      rw [List.append_assoc, List.singleton_append] at hbelow
      simp [hbelow]

theorem no_link (h : Seat d root way rest base) {k : List Text} (hk : k <+: rest ++ more)
    (hne : k ≠ []) (link : Text) : d.node? (base ++ k) ≠ some (.link link) :=
  h.unlinked k hne (List.prefix_or_prefix_of_prefix hk (List.prefix_append rest more)) link

theorem place (h : Seat d root way rest base) (hplain : Plain (root ++ more)) {follow : Bool}
    (hmore : rest ++ more ≠ [] ∨ follow = true) :
    Disk.Leads d base (rest ++ more) (d.place follow (Path.absolute (root ++ more))) := by
  have hsplit : root ++ more = way ++ (rest ++ more) := by rw [h.split, List.append_assoc]
  rw [hsplit] at hplain ⊢
  exact h.enters.place hplain hmore fun k hk hne _ link => h.no_link hk hne link

/-- What a path at or below the destination finds is at its own location. -/
theorem find (h : Seat d root way rest base) (hplain : Plain (root ++ more)) {x : Location}
    {n : Node} (hfind : d.find true (Path.absolute (root ++ more)) = .ok (x, n)) :
    x = base ++ (rest ++ more) ∧ d.node? (base ++ (rest ++ more)) = some n := by
  obtain ⟨hplace, hx⟩ := Disk.find_eq_ok.mp hfind
  obtain rfl := (h.place hplain (Or.inr rfl)).found_iff hplace
  exact ⟨rfl, hx⟩

/-- What is found at its own location, and was there before, was found before. -/
theorem find_shrunk {d' : Disk} (h : Seat d root way rest base) (hsound : d.Sound)
    (hgrows : Grows d d') (hplain : Plain (root ++ more)) {n n' : Node}
    (hfind : d'.find true (Path.absolute (root ++ more)) = .ok (base ++ (rest ++ more), n'))
    (hn : d.node? (base ++ (rest ++ more)) = some n) :
    d.find true (Path.absolute (root ++ more)) = .ok (base ++ (rest ++ more), n) := by
  refine Disk.find_eq_ok.mpr ⟨?_, hn⟩
  have hplace := (Disk.find_eq_ok.mp hfind).1
  have hsplit : root ++ more = way ++ (rest ++ more) := by rw [h.split, List.append_assoc]
  rw [hsplit] at hplain hplace ⊢
  obtain ⟨onLink, hwalk⟩ := Disk.walk_append (Or.inr rfl) Disk.linkLimit [] way h.enters.leads
  obtain ⟨onLink', hwalk'⟩ := Disk.walk_append (Or.inr rfl) Disk.linkLimit [] way
    (h.enters.grown hsound hgrows).leads
  unfold Disk.place at hplace ⊢
  rw [Disk.start_congr hgrows.cwd]
  cases hstart : d'.start (Path.absolute (way ++ (rest ++ more))) with
  | error e => simp [hstart] at hplace
  | ok l =>
    obtain rfl := Disk.start_absolute hstart
    rw [hstart, Disk.steps_absolute hplain] at hplace
    rw [Disk.steps_absolute hplain]
    dsimp only at hplace ⊢
    rw [hwalk'] at hplace
    rw [hwalk]
    exact Disk.walkWith_shrunk hsound hgrows
      (hplain.sublist (List.sublist_append_right way (rest ++ more))) (by simp [hn])
      (fun k hk hne => h.no_link hk hne) hplace

/-- A path that leads to its own location at last has always led to what was there. -/
theorem found?_eq {d' : Disk} (h : Seat d root way rest base) (hsound : d.Sound)
    (hgrows : Grows d d') (hplain : Plain (root ++ more)) {n' : Node}
    (hfind : d'.find true (Path.absolute (root ++ more)) = .ok (base ++ (rest ++ more), n')) :
    d.found? (Path.absolute (root ++ more)) = d.node? (base ++ (rest ++ more)) := by
  unfold Disk.found?
  cases hn : d.node? (base ++ (rest ++ more)) with
  | none =>
    cases hbefore : d.find true (Path.absolute (root ++ more)) with
    | error e => rfl
    | ok found =>
      have hnode := (h.find hplain hbefore).2
      simp [hn] at hnode
  | some n =>
    rw [h.find_shrunk hsound hgrows hplain hfind hn]
    rfl

/-- The seat stays when directories are made. -/
theorem roomier {d' : Disk} (h : Seat d root way rest base) (hsound : d.Sound)
    (hroomier : Roomier ∅ d d') : Seat d' root way rest base := by
  refine ⟨h.split, h.enters.grown hsound hroomier.grows, fun k hk hway link hlink => ?_⟩
  exact h.unlinked k hk hway link ((hroomier.node_iff (by simp) rfl).mp hlink)

/-- The seat stays when a file is put in a place. -/
theorem placed (h : Seat d root way rest base) (hsound : d.Sound) {dir : Location}
    {name data : Text} {m : Nat} {t : Instant}
    (hgrows : Grows d (d.placed dir name (.file data m t))) :
    Seat (d.placed dir name (.file data m t)) root way rest base := by
  refine ⟨h.split, h.enters.grown hsound hgrows, fun k hk hway link hlink => ?_⟩
  by_cases heq : base ++ k = dir ++ [name]
  · rw [heq, Disk.node?_placed, if_pos rfl] at hlink
    simp at hlink
  · have halike := Disk.alikeOff_placed d dir name (.file data m t)
    have hsame := halike.node (base ++ k) (by simpa using heq)
    exact h.unlinked k hk hway link (hsame.link hlink)

/-- A path below the seat is located at its own location. -/
theorem located (h : Seat d root way rest base) {front : List Text} {name : Text} {dir : Location}
    (hplain : Plain (front ++ [name])) (hlocated : Located d front name dir)
    (hcs : front ++ [name] = root ++ more) (hne : rest ++ more ≠ []) :
    dir ++ [name] = base ++ (rest ++ more) := by
  have hleads : Disk.Leads d base (rest ++ more) (d.place false (Path.absolute (root ++ more))) :=
    h.place (hcs ▸ hplain) (Or.inl hne)
  rw [← hcs, hlocated.place hplain] at hleads
  cases hnode : d.node? (dir ++ [name]) with
  | none =>
    rw [hnode] at hleads
    exact hleads.location
  | some n =>
    rw [hnode] at hleads
    exact hleads.location

end Seat

/-! ### Entries at a seat -/

section Entries

variable {archive image : Text} {d d' : Disk} {root way rest : List Text} {base x : Location}
  {e : Entry}

/-- The target of an entry at this moment is not a directory. -/
def FileBound (root : Text) (d : Disk) (e : Entry) : Prop :=
  ∀ t, names root t e = true → ∀ n, d.found? t = some n → n.isDir = false

theorem fileBound_iff (root : Text) (d : Disk) (e : Entry) : FileBound root d e ↔
    (e.kind = .regular →
      ∀ n ∈ (target root e.name).toOption.bind d.found?, n.isDir = false) := by
  unfold FileBound
  simp only [names_iff]
  cases target root e.name with
  | error f => simp [Except.toOption]
  | ok t => simp [Except.toOption]

instance (root : Text) (d : Disk) (e : Entry) : Decidable (FileBound root d e) :=
  decidable_of_iff _ (fileBound_iff root d e).symm

theorem FileBound.find_ne {root t : Text} (h : FileBound root d e) (hkind : e.kind = .regular)
    (htarget : target root e.name = .ok t) (x : Location) (m : Nat) (s : Instant) :
    d.find true t ≠ .ok (x, .dir m s) := by
  intro hfind
  have hn := h t (names_iff.mpr ⟨hkind, htarget⟩) _ (Disk.found?_eq_some.mpr ⟨x, hfind⟩)
  simp [Node.isDir] at hn

/-- An entry is written at this moment: its target is missing, or strictly older. -/
def Due (root : Text) (d : Disk) (e : Entry) : Prop :=
  ∃ t, names root t e = true ∧ ∀ n, d.found? t = some n → n.modified.before e.modified = true

/-- An entry that is written at a seat: it goes to the location of its target, where there was
    nothing or an older file. -/
structure Landed (archive image : Text) (root rest : List Text) (base : Location) (d : Disk)
    (e : Entry) (x : Location) (d' : Disk) (more : List Text) : Prop where
  plain : Plain (root ++ more)
  kind : e.kind = .regular
  target : target (Path.absolute root) e.name = .ok (Path.absolute (root ++ more))
  location : x = base ++ (rest ++ more)
  older : ∀ n, d.node? x = some n → n.isDir = false ∧ n.modified.before e.modified = true
  found : ∃ data, e.opened archive image = .ok (.ok data) ∧
    d'.find true (Path.absolute (root ++ more)) =
      .ok (x, .file data e.fileMode e.modified.wrapped)
  grows : Grows d d'

/-- A regular target below the destination, by its components. -/
theorem exists_more (hroot : Plain root) {t : Text}
    (h : target (Path.absolute root) e.name = .ok t) :
    ∃ more, Plain (root ++ more) ∧ t = Path.absolute (root ++ more) := by
  obtain ⟨l, hl, rfl, more, rfl⟩ := target_below hroot h
  exact ⟨more, hl, rfl⟩

/-- A target that is not a directory is below the seat. -/
theorem Seat.beyond {more : List Text} (h : Seat d root way rest base)
    (hfile : FileBound (Path.absolute root) d e) (hkind : e.kind = .regular)
    (hplain : Plain (root ++ more))
    (htarget : target (Path.absolute root) e.name = .ok (Path.absolute (root ++ more)))
    (hstart : d.start (Path.absolute (root ++ more)) = .ok []) : rest ++ more ≠ [] := by
  intro hnil
  have hway : way = root ++ more := by rw [h.split, List.append_assoc, hnil, List.append_nil]
  obtain ⟨m, s, hdir⟩ := h.enters.dir
  have hplace := h.enters.place_eq (hway ▸ hplain) (hway ▸ hstart)
  rw [hway] at hplace
  exact hfile.find_ne hkind htarget base m s (Disk.find_eq_ok.mpr ⟨hplace, hdir⟩)

/-- An entry that is written at a seat lands there, and the seat stays. -/
theorem Seat.writes (h : Seat d root way rest base) (hsound : d.Sound) (hroot : Plain root)
    (hfile : FileBound (Path.absolute root) d e)
    (hwrites : Writes archive image (Path.absolute root) d e x d') :
    (∃ more, Landed archive image root rest base d e x d' more) ∧ Seat d' root way rest base := by
  obtain ⟨hplain, htarget, hkind, hdue, hopened, hready, hlocated, hnodir⟩ := hwrites
  rename_i front name data dir ready
  obtain ⟨more, hplain', heq⟩ := exists_more hroot htarget
  have hcs : front ++ [name] = root ++ more := Path.absolute_inj hplain hplain' heq
  have hstart : d.start (Path.absolute (front ++ [name])) = .ok [] :=
    (Disk.start_congr hready.roomier.cwd _).trans hlocated.start
  have hne := h.beyond hfile hkind hplain' (hcs ▸ htarget) (hcs ▸ hstart)
  have hseat := h.roomier hsound hready.roomier
  have hlocation := hseat.located hplain hlocated hcs hne
  have hnolink : ∀ link, ready.node? (dir ++ [name]) ≠ some (.link link) := by
    intro link
    rw [hlocation]
    exact hseat.no_link List.prefix_rfl hne link
  have hold : Grown (ready.node? (dir ++ [name]))
      (some (.file data e.fileMode e.modified.wrapped)) := by
    rcases hnode : ready.node? (dir ++ [name]) with _ | (⟨a, m, t⟩ | ⟨m, t⟩ | link)
    · exact .vacant _
    · exact .file _ _ _ _ _ _
    · exact absurd hnode (hnodir m t)
    · exact absurd hnode (hnolink link)
  have hfind := Disk.find_placed hplain (hready.sound hsound) hlocated hold (by simp)
  have hgrows := Disk.grows_placed hold
  refine ⟨⟨more, hplain', hkind, hcs ▸ htarget, hlocation, ?_, ⟨data, hopened, hcs ▸ hfind⟩,
    hready.roomier.grows.trans hgrows⟩, hseat.placed (hready.sound hsound) hgrows⟩
  -- What was there was found by its path, so it was compared.
  intro n hn
  obtain rfl := hready.eq_of_node hsound hplain hlocated hn
  have hfind' : ready.find false (Path.absolute (front ++ [name])) = .ok (dir ++ [name], n) :=
    (Disk.find_absolute_concat hplain).mpr ⟨dir, hlocated, rfl, hn⟩
  have hlink : ∀ link, n ≠ .link link := fun link heq => hnolink link (heq ▸ hn)
  refine ⟨?_, hdue _ _ (Disk.find_follow hfind' hlink)⟩
  cases n with
  | dir m t => exact absurd hn (hnodir m t)
  | file _ _ _ => rfl
  | link _ => rfl

/-- The entries that are written are those that are due. -/
theorem Writes.due {root : Text} (h : Writes archive image root d e x d') : Due root d e := by
  obtain ⟨_, htarget, hkind, hdue, _, _, _, _⟩ := h
  refine ⟨_, names_iff.mpr ⟨hkind, htarget⟩, fun n hn => ?_⟩
  obtain ⟨y, hfind⟩ := Disk.found?_eq_some.mp hn
  exact hdue y n hfind

/-- An entry that names a target and passes has found it up to date. -/
theorem Passes.upToDate_of_names {root t : Text} (h : Passes root d e d')
    (hnames : names root t e = true) :
    d' = d ∧ ∃ x n, d.find true t = .ok (x, n) ∧ n.modified.before e.modified = false := by
  obtain ⟨hkind, htarget⟩ := names_iff.mp hnames
  cases h with
  | special _ hspecial => simp [hkind] at hspecial
  | directory _ _ hdirectory _ => simp [hkind] at hdirectory
  | upToDate _ htarget' _ hfind hnewer =>
    obtain rfl := Except.ok.inj (htarget'.symm.trans htarget)
    exact ⟨rfl, _, _, hfind, hnewer⟩

theorem Passes.not_due {root : Text} (h : Passes root d e d') : ¬ Due root d e := by
  rintro ⟨t, hnames, hdue⟩
  obtain ⟨_, x, n, hfind, hnewer⟩ := h.upToDate_of_names hnames
  rw [hdue n (Disk.found?_eq_some.mpr ⟨x, hfind⟩)] at hnewer
  simp at hnewer

theorem Passes.exists_target {root : Text} (h : Passes root d e d') :
    ∃ t, target root e.name = .ok t := by
  cases h with
  | special htarget _ => exact ⟨_, htarget⟩
  | directory _ htarget _ _ => exact ⟨_, htarget⟩
  | upToDate _ htarget _ _ _ => exact ⟨_, htarget⟩

/-- A directory that passes is there. -/
theorem Passes.found_of_directory {root t : Text} (h : Passes root d e d')
    (hkind : e.kind = .directory) (htarget : target root e.name = .ok t) :
    ∃ x m s, d'.find true t = .ok (x, .dir m s) := by
  cases h with
  | special _ hspecial => simp [hkind] at hspecial
  | upToDate _ _ hregular _ _ => simp [hkind] at hregular
  | directory _ htarget' _ hmade =>
    obtain rfl := Except.ok.inj (htarget'.symm.trans htarget)
    cases hmade with
    | unchanged hfound => exact hfound rfl
    | made _ _ _ _ _ hfound => exact hfound rfl

/-- An entry that is written has found a seat. -/
theorem exists_seat_of_writes (hsound : d.Sound) (hroot : Plain root)
    (hlinks : Linkless d (Path.absolute root)) (hfile : FileBound (Path.absolute root) d e)
    (hwrites : Writes archive image (Path.absolute root) d e x d') :
    ∃ way rest base, Seat d root way rest base := by
  obtain ⟨hplain, htarget, hkind, -, -, hready, hlocated, hnodir⟩ := hwrites
  rename_i front name data dir ready
  obtain ⟨more, hplain', heq⟩ := exists_more hroot htarget
  have hcs : root ++ more = front ++ [name] := (Path.absolute_inj hplain hplain' heq).symm
  have hstart' : d.start (Path.absolute (root ++ more)) = .ok [] := by
    rw [hcs]
    exact (Disk.start_congr hready.roomier.cwd _).trans hlocated.start
  have hstart := Disk.start_front hstart'
  cases hready with
  | @made front' made rest' base' _ _ hfront hmade henters hnew herr _ =>
    obtain rfl := herr.mp rfl
    rw [List.append_nil] at hfront
    rw [hfront] at hcs
    exact Seat.of_vacant hsound hplain' hlinks hstart hcs hmade henters hnew.vacant
  | unchanged _ =>
    have hprefix : root <+: front ++ [name] := hcs ▸ List.prefix_append root more
    rcases List.prefix_concat_iff.mp hprefix with rfl | ⟨j, rfl⟩
    · -- The destination itself is written. It is not a link, since that would lead to a directory.
      have hnolink : ∀ link, d.node? (dir ++ [name]) ≠ some (.link link) := by
        intro link hlink
        have hfind := (Disk.find_absolute_concat hplain).mpr ⟨dir, hlocated, rfl, hlink⟩
        obtain ⟨y, m, t, hdir⟩ := hlinks.itself _ link hfind
        exact hfile.find_ne hkind htarget y m t hdir
      refine ⟨front, [name], dir, rfl, hlocated.enters, fun k hk hway link hlink => ?_⟩
      obtain ⟨j, rfl⟩ : [name] <+: k := by
        rcases hway with hway | hway
        · rcases List.prefix_concat_iff.mp (show k <+: [] ++ [name] from hway) with rfl | hnil
          · exact List.prefix_rfl
          · exact absurd (List.prefix_nil.mp hnil) hk
        · exact hway
      by_cases hj : j = []
      · subst hj
        exact hnolink link hlink
      · rw [← List.append_assoc] at hlink
        obtain ⟨m, t, hdir⟩ := hsound.dir_of_below hj hlink
        exact hnodir m t hdir
    · have hj : Plain j := by
        intro c hc
        refine hplain c ?_
        simp [hc]
      obtain ⟨y, hy⟩ := hlocated.enters.front hj
      exact ⟨root, [], y, Seat.of_enters hroot hlinks hstart hy⟩

/-- Without a seat, an entry that passes changes nothing. -/
theorem Passes.eq_of_seatless (h : Passes (Path.absolute root) d e d') (hsound : d.Sound)
    (hroot : Plain root) (hlinks : Linkless d (Path.absolute root))
    (hnone : ¬ ∃ way rest base, Seat d root way rest base) : d' = d := by
  cases h with
  | special _ _ => rfl
  | upToDate _ _ _ _ _ => rfl
  | @directory cs _ hplain htarget _ hmade =>
    cases hmade with
    | unchanged _ => rfl
    | @made front made rest base _ _ hcs hmade henters hnew herr hfound =>
      obtain rfl := herr.mp rfl
      obtain ⟨more, hplain', heq⟩ := exists_more hroot htarget
      have hcs' : root ++ more = cs := (Path.absolute_inj hplain hplain' heq).symm
      obtain ⟨y, m, t, hfind⟩ := hfound rfl
      have hstart : d'.start (Path.absolute cs) = .ok [] := by
        have hplace := (Disk.find_eq_ok.mp hfind).1
        unfold Disk.place at hplace
        cases hs : d'.start (Path.absolute cs) with
        | error err => simp [hs] at hplace
        | ok l => rw [Disk.start_absolute hs]
      have hstart' : d.start (Path.absolute (root ++ more)) = .ok [] := by
        rw [hcs']
        exact (Disk.start_congr hnew.cwd _).trans hstart
      exact absurd (Seat.of_vacant hsound hplain' hlinks (Disk.start_front hstart')
        (hcs'.trans hcs) hmade henters hnew.vacant) hnone

end Entries

/-! ### Tracking a target -/

/-- What is at the location of a target. As long as no entry has named it, files are as they
    were. From then on the target is found there, as fresh as the entries that have named it. -/
inductive Tracked (archive image t : Text) (x : Location) (d d' : Disk) : List Entry → Prop where
  | untouched (h : ∀ n, n.isDir = false → (d'.node? x = some n ↔ d.node? x = some n)) :
      Tracked archive image t x d d' []
  | named {es : List Entry} {n : Node} (hfind : d'.find true t = .ok (x, n))
      (hn : n.isDir = false) (hfresh : Fresh archive image (d.node? x) n es) :
      Tracked archive image t x d d' es

namespace Tracked

variable {archive image t : Text} {x : Location} {d d' d'' : Disk} {es : List Entry} {e : Entry}

theorem other (h : Tracked archive image t x d d' es) (hsound : d'.Sound) (hgrows : Grows d' d'')
    (ht : Path.isAbsolute t = true)
    (hiff : ∀ n, n.isDir = false → (d''.node? x = some n ↔ d'.node? x = some n)) :
    Tracked archive image t x d d'' es := by
  cases h with
  | untouched h => exact .untouched fun n hn => (hiff n hn).trans (h n hn)
  | named hfind hn hfresh =>
    obtain ⟨n', hfind', _⟩ := Disk.find_grown hsound hgrows (Or.inl ht) hfind
    have hnode := (hiff _ hn).mpr (Disk.find_eq_ok.mp hfind).2
    obtain rfl := Option.some.inj (hnode.symm.trans (Disk.find_eq_ok.mp hfind').2)
    exact .named hfind' hn hfresh

theorem kept {n : Node} (h : Tracked archive image t x d d' es)
    (hfind : d'.find true t = .ok (x, n)) (hn : n.isDir = false)
    (hnewer : n.modified.before e.modified = false) :
    Tracked archive image t x d d' (es ++ [e]) := by
  refine .named hfind hn ?_
  cases h with
  | untouched h =>
    rw [(h n hn).mp (Disk.find_eq_ok.mp hfind).2]
    exact Fresh.first_kept hnewer
  | named hfind' _ hfresh =>
    rw [hfind'] at hfind
    obtain ⟨_, rfl⟩ := Prod.mk.inj (Except.ok.inj hfind)
    exact hfresh.kept hnewer

theorem written {data : Text} (h : Tracked archive image t x d d' es) (hgrows : Grows d d')
    (holder : ∀ n, d'.node? x = some n → n.isDir = false ∧ n.modified.before e.modified = true)
    (hopened : e.opened archive image = .ok (.ok data))
    (hfind : d''.find true t = .ok (x, .file data e.fileMode e.modified)) :
    Tracked archive image t x d d'' (es ++ [e]) := by
  refine .named hfind rfl ?_
  cases h with
  | untouched h =>
    refine Fresh.first_written (fun n hn => ?_) hopened
    -- What was there at first is still there, unless it was a directory.
    cases n with
    | dir m s =>
      obtain ⟨s', hdir⟩ := hgrows.dir hn
      simpa [Node.isDir] using (holder _ hdir).1
    | file _ _ _ => exact (holder _ ((h _ rfl).mpr hn)).2
    | link _ => exact (holder _ ((h _ rfl).mpr hn)).2
  | named hfind' _ hfresh =>
    exact hfresh.written (holder _ (Disk.find_eq_ok.mp hfind').2).2 hopened

end Tracked

/-! ### All entries -/

/-- All entries of an archive have been taken without a failure. The destination had no links,
    no regular target was a directory when its turn came, and the times of the entries can be
    held by the disk. -/
structure Unpacked (archive image : Text) (root : List Text) (d : Disk) (es : List Entry) : Prop where
  plain : Plain root
  linkless : Linkless d (Path.absolute root)
  sound : ∀ i ≤ es.length, (diskAfter archive image (Path.absolute root) d es i).Sound
  steps : ∀ i < es.length, PassesAt archive image (Path.absolute root) d es i ∨
    ∃ x, WritesAt archive image (Path.absolute root) d es i x
  files : ∀ i e, es[i]? = some e →
    FileBound (Path.absolute root) (diskAfter archive image (Path.absolute root) d es i) e
  times : ∀ e ∈ es, e.kind = .regular → e.modified.wrapped = e.modified

namespace Unpacked

variable {archive image : Text} {root way rest : List Text} {base : Location} {d : Disk}
  {es : List Entry}

theorem step (h : Unpacked archive image root d es) {i : Nat} {e : Entry} (he : es[i]? = some e) :
    Passes (Path.absolute root) (diskAfter archive image (Path.absolute root) d es i) e
      (diskAfter archive image (Path.absolute root) d es (i + 1)) ∨
    ∃ x, Writes archive image (Path.absolute root)
      (diskAfter archive image (Path.absolute root) d es i) e x
      (diskAfter archive image (Path.absolute root) d es (i + 1)) := by
  rcases h.steps i (List.getElem?_eq_some_iff.mp he).1 with ⟨e', he', hpasses⟩ | ⟨x, e', he', hwrites⟩
  · obtain rfl : e = e' := Option.some.inj (he.symm.trans he')
    exact Or.inl hpasses
  · obtain rfl : e = e' := Option.some.inj (he.symm.trans he')
    exact Or.inr ⟨x, hwrites⟩

/-- Every entry keeps the seat. -/
theorem seat (h : Unpacked archive image root d es) (hseat : Seat d root way rest base) {i : Nat}
    (hi : i ≤ es.length) :
    Seat (diskAfter archive image (Path.absolute root) d es i) root way rest base := by
  induction i with
  | zero => exact hseat
  | succ i ih =>
    have hsound := h.sound i (by omega)
    have hseat' := ih (by omega)
    rcases h.steps i (by omega) with ⟨e, he, hpasses⟩ | ⟨x, e, he, hwrites⟩
    · exact hseat'.roomier hsound hpasses.roomier
    · exact (hseat'.writes hsound h.plain (h.files i e he) hwrites).2

/-- Without a seat, nothing is written and nothing changes. -/
theorem eq_of_seatless (h : Unpacked archive image root d es)
    (hnone : ¬ ∃ way rest base, Seat d root way rest base) {i : Nat} (hi : i ≤ es.length) :
    diskAfter archive image (Path.absolute root) d es i = d := by
  induction i with
  | zero => rfl
  | succ i ih =>
    have hdisk := ih (by omega)
    have hsound : d.Sound := h.sound 0 (Nat.zero_le _)
    rcases h.steps i (by omega) with ⟨e, he, hpasses⟩ | ⟨x, e, he, hwrites⟩
    · rw [hdisk] at hpasses
      exact hpasses.eq_of_seatless hsound h.plain h.linkless hnone
    · have hfile := h.files i e he
      rw [hdisk] at hwrites hfile
      exact absurd (exists_seat_of_writes hsound h.plain h.linkless hfile hwrites) hnone

theorem landed (h : Unpacked archive image root d es) {i : Nat} {x : Location} {e : Entry}
    (he : es[i]? = some e)
    (hwrites : Writes archive image (Path.absolute root)
      (diskAfter archive image (Path.absolute root) d es i) e x
      (diskAfter archive image (Path.absolute root) d es (i + 1))) :
    ∃ rest base more, Landed archive image root rest base
      (diskAfter archive image (Path.absolute root) d es i) e x
      (diskAfter archive image (Path.absolute root) d es (i + 1)) more := by
  have hi : i < es.length := (List.getElem?_eq_some_iff.mp he).1
  have hsound := h.sound i (by omega)
  by_cases hseat : ∃ way rest base, Seat d root way rest base
  · obtain ⟨way, rest, base, hseat⟩ := hseat
    obtain ⟨⟨more, hlanded⟩, _⟩ := (h.seat hseat (by omega)).writes hsound h.plain (h.files i e he)
      hwrites
    exact ⟨rest, base, more, hlanded⟩
  · have hfile := h.files i e he
    rw [h.eq_of_seatless hseat (by omega)] at hwrites hfile hsound
    exact absurd (exists_seat_of_writes hsound h.plain h.linkless hfile hwrites) hseat

theorem grows (h : Unpacked archive image root d es) {i j : Nat} (hij : i ≤ j) (hj : j ≤ es.length) :
    Grows (diskAfter archive image (Path.absolute root) d es i)
      (diskAfter archive image (Path.absolute root) d es j) := by
  induction j with
  | zero =>
    obtain rfl : i = 0 := by omega
    exact Grows.refl _
  | succ j ih =>
    by_cases hlast : i = j + 1
    · rw [hlast]
      exact Grows.refl _
    · refine (ih (by omega) (by omega)).trans ?_
      rcases h.steps j (by omega) with ⟨e, he, hpasses⟩ | ⟨x, e, he, hwrites⟩
      · exact hpasses.roomier.grows
      · obtain ⟨_, _, _, hlanded⟩ := h.landed he hwrites
        exact hlanded.grows

/-- What an entry that does not name a target leaves at its location. -/
theorem node_iff_succ (h : Unpacked archive image root d es) (hseat : Seat d root way rest base)
    {more : List Text} {i : Nat} {e : Entry} (he : es[i]? = some e)
    (hnames : names (Path.absolute root) (Path.absolute (root ++ more)) e = false) (n : Node)
    (hn : n.isDir = false) :
    (diskAfter archive image (Path.absolute root) d es (i + 1)).node? (base ++ (rest ++ more)) =
        some n ↔
      (diskAfter archive image (Path.absolute root) d es i).node? (base ++ (rest ++ more)) =
        some n := by
  have hi : i < es.length := (List.getElem?_eq_some_iff.mp he).1
  rcases h.step he with hpasses | ⟨x, hwrites⟩
  · exact hpasses.roomier.node_iff (by simp) hn
  · obtain ⟨⟨more', hlanded⟩, _⟩ := (h.seat hseat (by omega)).writes (h.sound i (by omega)) h.plain
      (h.files i e he) hwrites
    refine hwrites.roomier.node_iff ?_ hn
    -- Another target is at another location.
    intro hx
    have hx : base ++ (rest ++ more) = base ++ (rest ++ more') :=
      (Set.mem_singleton_iff.mp hx).trans hlanded.location
    obtain rfl : more = more' := by simpa using hx
    rw [names_iff.mpr ⟨hlanded.kind, hlanded.target⟩] at hnames
    simp at hnames

/-- Every target is tracked through all entries. -/
theorem tracked (h : Unpacked archive image root d es) (hseat : Seat d root way rest base)
    {more : List Text} (hmore : Plain (root ++ more)) {i : Nat} (hi : i ≤ es.length) :
    Tracked archive image (Path.absolute (root ++ more)) (base ++ (rest ++ more)) d
      (diskAfter archive image (Path.absolute root) d es i)
      ((es.take i).filter (names (Path.absolute root) (Path.absolute (root ++ more)))) := by
  induction i with
  | zero => exact .untouched fun _ _ => Iff.rfl
  | succ i ih =>
    have htracked := ih (by omega)
    have hsound := h.sound i (by omega)
    have hseat' := h.seat hseat (i := i) (by omega)
    have he : es[i]? = some es[i] := List.getElem?_eq_getElem (by omega)
    rw [List.take_add_one, he, Option.toList_some, List.filter_append]
    by_cases hnames : names (Path.absolute root) (Path.absolute (root ++ more)) es[i] = true
    · obtain ⟨hkind, htarget⟩ := names_iff.mp hnames
      rw [List.filter_cons_of_pos hnames, List.filter_nil]
      rcases h.step he with hpasses | ⟨x, hwrites⟩
      · obtain ⟨hdisk, x, n, hfind, hnewer⟩ := hpasses.upToDate_of_names hnames
        obtain ⟨rfl, _⟩ := hseat'.find hmore hfind
        rw [hdisk]
        refine htracked.kept hfind ?_ hnewer
        cases n with
        | dir m s => exact absurd hfind ((h.files i _ he).find_ne hkind htarget _ m s)
        | file _ _ _ => rfl
        | link _ => rfl
      · obtain ⟨⟨more', hlanded⟩, _⟩ := hseat'.writes hsound h.plain (h.files i _ he) hwrites
        obtain rfl : more = more' := by
          have heq := Except.ok.inj (htarget.symm.trans hlanded.target)
          simpa using Path.absolute_inj hmore hlanded.plain heq
        obtain rfl := hlanded.location
        obtain ⟨data, hopened, hfind⟩ := hlanded.found
        rw [h.times _ (List.getElem_mem _) hkind] at hfind
        exact htracked.written (h.grows (Nat.zero_le i) (by omega)) hlanded.older hopened hfind
    · have hnames : names (Path.absolute root) (Path.absolute (root ++ more)) es[i] = false := by
        simpa using hnames
      rw [List.filter_cons_of_neg (by simp [hnames]), List.filter_nil, List.append_nil]
      exact htracked.other hsound (h.grows (Nat.le_succ i) hi) rfl
        (h.node_iff_succ hseat he hnames)

/-- A target is as fresh as the entries that name it. -/
theorem fresh (h : Unpacked archive image root d es) {t : Text} {e : Entry} (he : e ∈ es)
    (hnames : names (Path.absolute root) t e = true) :
    ∃ x n, (diskAfter archive image (Path.absolute root) d es es.length).find true t = .ok (x, n) ∧
      Fresh archive image (d.found? t) n (es.filter (names (Path.absolute root) t)) := by
  have hmem : e ∈ es.filter (names (Path.absolute root) t) := List.mem_filter.mpr ⟨he, hnames⟩
  have hsound : d.Sound := h.sound 0 (Nat.zero_le _)
  by_cases hseat : ∃ way rest base, Seat d root way rest base
  · obtain ⟨way, rest, base, hseat⟩ := hseat
    obtain ⟨more, hmore, rfl⟩ := exists_more h.plain (names_iff.mp hnames).2
    have htracked := h.tracked hseat hmore (Nat.le_refl es.length)
    rw [List.take_length] at htracked
    generalize es.filter (names (Path.absolute root) (Path.absolute (root ++ more))) = named
      at hmem htracked ⊢
    cases htracked with
    | untouched _ => simp at hmem
    | named hfind _ hfresh =>
      refine ⟨_, _, hfind, ?_⟩
      rw [hseat.found?_eq hsound (h.grows (Nat.zero_le _) (Nat.le_refl _)) hmore hfind]
      exact hfresh
  · -- Nothing has changed, so all of them have found the target as it was.
    have hpasses : ∀ e ∈ es, names (Path.absolute root) t e = true →
        ∃ x n, d.find true t = .ok (x, n) ∧ n.modified.before e.modified = false := by
      intro e he hnames
      obtain ⟨i, he'⟩ := List.mem_iff_getElem?.mp he
      have hi : i < es.length := (List.getElem?_eq_some_iff.mp he').1
      rcases h.step he' with hpasses | ⟨x, hwrites⟩
      · obtain ⟨_, x, n, hfind, hnewer⟩ := hpasses.upToDate_of_names hnames
        rw [h.eq_of_seatless hseat (by omega)] at hfind
        exact ⟨x, n, hfind, hnewer⟩
      · have hfile := h.files i e he'
        rw [h.eq_of_seatless hseat (by omega)] at hwrites hfile
        exact absurd (exists_seat_of_writes hsound h.plain h.linkless hfile hwrites) hseat
    obtain ⟨x, n, hfind, _⟩ := hpasses e he hnames
    rw [h.eq_of_seatless hseat (Nat.le_refl _)]
    refine ⟨x, n, hfind, ?_⟩
    have hfound : d.found? t = some n := by
      rw [Disk.found?, hfind]
      rfl
    rw [hfound]
    refine Fresh.of_kept (List.ne_nil_of_mem hmem) fun e' he' => ?_
    obtain ⟨he', hnames'⟩ := List.mem_filter.mp he'
    obtain ⟨x', n', hfind', hnewer⟩ := hpasses e' he' hnames'
    obtain ⟨_, rfl⟩ := Prod.mk.inj (Except.ok.inj (hfind.symm.trans hfind'))
    exact hnewer

/-- Files at which no target is found have not changed. -/
theorem others (h : Unpacked archive image root d es) {l : Location}
    (hl : ∀ e ∈ es, ∀ t, names (Path.absolute root) t e = true → ∀ n,
      (diskAfter archive image (Path.absolute root) d es es.length).find true t ≠ .ok (l, n))
    {n : Node} (hn : n.isDir = false) {i : Nat} (hi : i ≤ es.length) :
    (diskAfter archive image (Path.absolute root) d es i).node? l = some n ↔ d.node? l = some n := by
  induction i with
  | zero => exact Iff.rfl
  | succ i ih =>
    rw [← ih (by omega)]
    rcases h.steps i (by omega) with ⟨e, he, hpasses⟩ | ⟨x, e, he, hwrites⟩
    · exact hpasses.roomier.node_iff (by simp) hn
    · refine hwrites.roomier.node_iff ?_ hn
      intro hx
      obtain rfl := Set.mem_singleton_iff.mp hx
      -- Its target is still found there at the end.
      obtain ⟨rest, base, more, hlanded⟩ := h.landed he hwrites
      obtain ⟨data, _, hfind⟩ := hlanded.found
      obtain ⟨n', hfind', _⟩ := Disk.find_grown (h.sound (i + 1) hi) (h.grows hi (Nat.le_refl _))
        (Or.inl rfl) hfind
      exact hl e (List.mem_of_getElem? he) _ (names_iff.mpr ⟨hlanded.kind, hlanded.target⟩) n' hfind'

theorem directories (h : Unpacked archive image root d es) {e : Entry} (he : e ∈ es)
    (hkind : e.kind = .directory) {t : Text} (ht : target (Path.absolute root) e.name = .ok t) :
    ∃ x m s, (diskAfter archive image (Path.absolute root) d es es.length).find true t =
      .ok (x, .dir m s) := by
  obtain ⟨i, hi⟩ := List.mem_iff_getElem?.mp he
  have hlt : i < es.length := (List.getElem?_eq_some_iff.mp hi).1
  rcases h.step hi with hpasses | ⟨x, hwrites⟩
  · obtain ⟨x, m, s, hfind⟩ := hpasses.found_of_directory hkind ht
    have habsolute : Path.isAbsolute t = true := by
      obtain ⟨more, _, rfl⟩ := exists_more h.plain ht
      exact Path.isAbsolute_absolute _
    obtain ⟨n, hfind', hgrown⟩ := Disk.find_grown (h.sound (i + 1) hlt)
      (h.grows hlt (Nat.le_refl _)) (Or.inl habsolute) hfind
    cases hgrown with
    | dir _ _ s' => exact ⟨x, m, s', hfind'⟩
  · obtain ⟨_, _, _, hlanded⟩ := h.landed hi hwrites
    simp [hlanded.kind] at hkind

theorem exists_target (h : Unpacked archive image root d es) {e : Entry} (he : e ∈ es) :
    ∃ t, target (Path.absolute root) e.name = .ok t := by
  obtain ⟨i, hi⟩ := List.mem_iff_getElem?.mp he
  rcases h.step hi with hpasses | ⟨x, hwrites⟩
  · exact hpasses.exists_target
  · obtain ⟨_, _, _, hlanded⟩ := h.landed hi hwrites
    exact ⟨_, hlanded.target⟩

/-- An entry that is written is one that was due. -/
theorem writesAt_iff (h : Unpacked archive image root d es) (i : Nat) :
    (∃ x, WritesAt archive image (Path.absolute root) d es i x) ↔
      ∃ e, es[i]? = some e ∧
        Due (Path.absolute root) (diskAfter archive image (Path.absolute root) d es i) e := by
  constructor
  · rintro ⟨x, e, he, hwrites⟩
    exact ⟨e, he, hwrites.due⟩
  · rintro ⟨e, he, hdue⟩
    rcases h.step he with hpasses | ⟨x, hwrites⟩
    · exact absurd hdue hpasses.not_due
    · exact ⟨x, e, he, hwrites⟩

/-! ### Unpacking again -/

/-- On the disk that is left, every entry finds its target up to date. -/
theorem unpackEntry_again (h : Unpacked archive image root d es) (again : Text) {e : Entry}
    (he : e ∈ es) :
    unpackEntry again image (Path.absolute root)
        (diskAfter archive image (Path.absolute root) d es es.length) e =
      (diskAfter archive image (Path.absolute root) d es es.length, 0, none) := by
  obtain ⟨t, ht⟩ := h.exists_target he
  unfold unpackEntry
  rw [ht]
  cases hkind : e.kind with
  | special => rfl
  | directory =>
    obtain ⟨x, m, s, hfind⟩ := h.directories he hkind ht
    dsimp only
    rw [Disk.mkdirs_of_found hfind]
    rfl
  | regular =>
    have hnames := names_iff.mpr ⟨hkind, ht⟩
    obtain ⟨x, n, hfind, hfresh⟩ := h.fresh he hnames
    have hnewer := hfresh.not_before (List.mem_filter.mpr ⟨he, hnames⟩)
    have hupToDate : upToDate (diskAfter archive image (Path.absolute root) d es es.length) e t =
        true := by
      simp [upToDate, Disk.stat, hfind, Except.mapError, hnewer]
    dsimp only
    rw [if_pos hupToDate]

theorem unpackEntries_again (h : Unpacked archive image root d es) (again : Text)
    {es' : List Entry} (hes' : es' ⊆ es) :
    unpackEntries again image (Path.absolute root)
        (diskAfter archive image (Path.absolute root) d es es.length) 0 es' =
      (diskAfter archive image (Path.absolute root) d es es.length, 0, none) := by
  induction es' with
  | nil => rfl
  | cons e es' ih =>
    rw [unpackEntries, h.unpackEntry_again again (hes' List.mem_cons_self)]
    exact ih fun e' he' => hes' (List.mem_cons_of_mem e he')

/-- A file that is not a target has its contents afterwards. -/
theorem contents_eq (h : Unpacked archive image root d es) {p data : Text}
    (hstart : Path.isAbsolute p = true ∨ ∀ l, d.cwd = some l → (d.node? l).isSome = true)
    (hp : ∀ x n, d.find true p = .ok (x, n) → ∀ e ∈ es, ∀ t,
      names (Path.absolute root) t e = true → ∀ n',
        (diskAfter archive image (Path.absolute root) d es es.length).find true t ≠ .ok (x, n'))
    (hdata : d.contents p = .ok data) :
    (diskAfter archive image (Path.absolute root) d es es.length).contents p = .ok data := by
  have hsound : d.Sound := h.sound 0 (Nat.zero_le _)
  unfold Disk.contents at hdata
  cases hfind : d.find true p with
  | error err => simp [hfind] at hdata
  | ok found =>
    obtain ⟨x, n⟩ := found
    rw [hfind] at hdata
    have hn : n.isDir = false := by
      cases n with
      | dir m s => by_cases hreadable : (!(Node.dir m s).readable) = true <;> simp [hreadable] at hdata
      | file _ _ _ => rfl
      | link _ => rfl
    obtain ⟨n', hfind', _⟩ := Disk.find_grown hsound (h.grows (Nat.zero_le _) (Nat.le_refl _))
      hstart hfind
    have hnode := (h.others (hp x n hfind) hn (Nat.le_refl _)).mpr (Disk.find_eq_ok.mp hfind).2
    obtain rfl := Option.some.inj (hnode.symm.trans (Disk.find_eq_ok.mp hfind').2)
    unfold Disk.contents
    rw [hfind']
    exact hdata

end Unpacked

open Classical in
/-- Unpacking that succeeds brings every target up to date. What a path led to stays if it is
    not older than the newest of the entries that name it, and else the path leads to a file
    with the contents, mode and time of that entry. The entries that are counted are those that
    were due when their turn came, and other files are as they were. Unpacking again does
    nothing, also from another path to the same archive. The archive itself keeps its contents
    if it is not a target. -/
theorem unpack_brings_up_to_date {d d' : Disk} {archive dest image root : Text} {es : List Entry}
    {written : Nat} (hsound : d.Sound) (himage : d.contents archive = .ok image)
    (hes : entries image = .ok es) (hroot : d.absolute dest = .ok root) (hlinks : Linkless d root)
    (hfiles : ∀ i e, es[i]? = some e → FileBound root (diskAfter archive image root d es i) e)
    (htimes : ∀ e ∈ es, e.kind = .regular → e.modified.wrapped = e.modified)
    (h : unpack d archive dest = (d', written, none)) :
    (∀ e ∈ es, ∀ t, names root t e = true → ∃ x n, d'.find true t = .ok (x, n) ∧
      Fresh archive image (d.found? t) n (es.filter (names root t))) ∧
    written = Nat.count (fun i => ∃ e, es[i]? = some e ∧
      Due root (diskAfter archive image root d es i) e) es.length ∧
    (∀ l, (∀ e ∈ es, ∀ t, names root t e = true → ∀ n, d'.find true t ≠ .ok (l, n)) →
      ∀ n, n.isDir = false → (d'.node? l = some n ↔ d.node? l = some n)) ∧
    (∀ again, d'.contents again = .ok image → unpack d' again dest = (d', 0, none)) ∧
    ((Path.isAbsolute archive = true ∨ ∀ l, d.cwd = some l → (d.node? l).isSome = true) →
      (∀ x n, d.find true archive = .ok (x, n) → ∀ e ∈ es, ∀ t, names root t e = true →
        ∀ n', d'.find true t ≠ .ok (x, n')) → d'.contents archive = .ok image) := by
  obtain ⟨hplain, hroot'⟩ := absolute_eq_ok hroot
  generalize Path.components root = cs at hplain hroot'
  subst hroot'
  have hrun : unpackEntries archive image (Path.absolute cs) d 0 (es.take es.length) =
      (d', written, none) := by
    rw [List.take_length]
    simpa only [unpack, himage, hes, hroot] using h
  have hgoing : Going archive image (Path.absolute cs) d es es.length := by
    unfold Going
    rw [hrun]
  obtain ⟨_, hcount, hsteps⟩ := hgoing.steps hsound hplain (Nat.le_refl _)
  have hsounds : ∀ i ≤ es.length, (diskAfter archive image (Path.absolute cs) d es i).Sound :=
    fun i hi => ((hgoing.of_le hi).steps hsound hplain hi).1
  have hunpacked : Unpacked archive image cs d es :=
    ⟨hplain, hlinks, hsounds, hsteps, hfiles, htimes⟩
  obtain rfl : diskAfter archive image (Path.absolute cs) d es es.length = d' := by
    unfold diskAfter
    rw [hrun]
  refine ⟨fun e he t ht => hunpacked.fresh he ht, ?_,
    fun l hl n hn => hunpacked.others hl hn (Nat.le_refl _), fun again hagain => ?_,
    fun hstart hp => hunpacked.contents_eq hstart hp himage⟩
  · rw [hrun] at hcount
    refine hcount.trans ?_
    rw [Nat.count_eq_card_filter_range, Nat.count_eq_card_filter_range]
    exact congrArg Finset.card (Finset.filter_congr fun i _ => hunpacked.writesAt_iff i)
  · have habsolute := Disk.absolute_grown (hunpacked.grows (Nat.zero_le _) (Nat.le_refl _)) hroot
    have hagain' := hunpacked.unpackEntries_again again (List.Subset.refl es)
    simpa only [unpack, hagain, hes, habsolute] using hagain'

/-! ### A sample -/

namespace Renewal

/-- An archive with the files `a`, `./a`, which is newer, and `k`. -/
def image : Text :=
  [80, 75, 3, 4, 20, 0, 0, 0, 0, 0, 0, 0, 33, 40, 0, 0, 0, 0, 1, 0, 0, 0, 1, 0, 0, 0, 1, 0, 0, 0,
    97, 120, 80, 75, 3, 4, 20, 0, 0, 0, 0, 0, 0, 0, 34, 40, 0, 0, 0, 0, 1, 0, 0, 0, 1, 0, 0, 0, 3,
    0, 0, 0, 46, 47, 97, 121, 80, 75, 3, 4, 20, 0, 0, 0, 0, 0, 0, 0, 33, 40, 0, 0, 0, 0, 1, 0, 0,
    0, 1, 0, 0, 0, 1, 0, 0, 0, 107, 122, 80, 75, 1, 2, 20, 3, 20, 0, 0, 0, 0, 0, 0, 0, 33, 40, 0,
    0, 0, 0, 1, 0, 0, 0, 1, 0, 0, 0, 1, 0, 0, 0, 0, 0, 0, 0, 0, 0, 0, 0, 164, 129, 0, 0, 0, 0, 97,
    80, 75, 1, 2, 20, 3, 20, 0, 0, 0, 0, 0, 0, 0, 34, 40, 0, 0, 0, 0, 1, 0, 0, 0, 1, 0, 0, 0, 3, 0,
    0, 0, 0, 0, 0, 0, 0, 0, 0, 0, 128, 129, 32, 0, 0, 0, 46, 47, 97, 80, 75, 1, 2, 20, 3, 20, 0, 0,
    0, 0, 0, 0, 0, 33, 40, 0, 0, 0, 0, 1, 0, 0, 0, 1, 0, 0, 0, 1, 0, 0, 0, 0, 0, 0, 0, 0, 0, 0, 0,
    164, 129, 66, 0, 0, 0, 107, 80, 75, 5, 6, 0, 0, 0, 0, 3, 0, 3, 0, 143, 0, 0, 0, 98, 0, 0, 0, 0,
    0]

/-- The entries of the archive. -/
def listed : List Entry :=
  match entries image with
  | .ok es => es
  | .error _ => []

/-- The archive `/z`, and a directory `/u` to unpack it in, with a newer file `/u/k`. -/
def disk : Disk where
  nodes := (((SortedMap.empty.insert [] (.dir 0o755 ⟨0, 0⟩)).insert [("u" : Text)]
    (.dir 0o755 ⟨0, 0⟩)).insert [("u" : Text), ("k" : Text)]
    (.file "w" 0o600 ⟨2000000000, 0⟩)).insert [("z" : Text)] (.file image 0o644 ⟨0, 0⟩)
  cwd := none
  now := ⟨1, 0⟩

theorem entries_image : entries image = .ok listed := by
  have hsome : (entries image).toOption.isSome = true := by decide +kernel
  unfold listed
  cases h : entries image with
  | error f => simp [h, Except.toOption] at hsome
  | ok es => rfl

theorem linkless_disk : Linkless disk "/u" := by
  have hnone : ∀ l link, disk.node? l ≠ some (.link link) := by
    intro l link hl
    have hmem := (SortedMap.mem_pairs_iff disk.nodes l _).mpr hl
    have hall : ∀ p ∈ disk.nodes.pairs, (p.2.isDir || p.2.isFile) = true := by decide +kernel
    simpa [Node.isDir, Node.isFile] using hall _ hmem
  exact ⟨fun x _ _ k link => hnone (x ++ k) link,
    fun x link hfind => absurd (Disk.find_eq_ok.mp hfind).2 (hnone x link)⟩

theorem unpack_brings_up_to_date_twice :
    disk.Sound ∧ (unpack disk "/z" "/u").2 = (2, none) ∧
    (∀ e ∈ listed, ∀ t, names "/u" t e = true →
      ∃ x n, (unpack disk "/z" "/u").1.find true t = .ok (x, n) ∧
        Fresh "/z" image (disk.found? t) n (listed.filter (names "/u" t))) ∧
    unpack (unpack disk "/z" "/u").1 "/z" "/u" = ((unpack disk "/z" "/u").1, 0, none) := by
  have hsound : disk.Sound := by decide +kernel
  have hresult : (unpack disk "/z" "/u").2.1 = 2 ∧ (unpack disk "/z" "/u").2.2.isNone = true ∧
      ((unpack disk "/z" "/u").1.contents "/z").toOption = some image := by decide +kernel
  have hfiles : ∀ i < 3, ∀ e ∈ listed[i]?,
      FileBound "/u" (diskAfter "/z" image "/u" disk listed i) e := by decide +kernel
  have hlength : listed.length = 3 := by decide +kernel
  have htimes : ∀ e ∈ listed, e.kind = .regular → e.modified.wrapped = e.modified := by
    decide +kernel
  obtain ⟨hcount, hnone, hkept⟩ := hresult
  have hpair : (unpack disk "/z" "/u").2 = (2, none) :=
    Prod.ext hcount (Option.isNone_iff_eq_none.mp hnone)
  have hcontents : (unpack disk "/z" "/u").1.contents "/z" = .ok image :=
    toOption_eq_some_iff.mp hkept
  have himage : disk.contents "/z" = .ok image := by rfl
  have hroot : disk.absolute "/u" = .ok "/u" := by rfl
  have hrun : unpack disk "/z" "/u" = ((unpack disk "/z" "/u").1, 2, none) := by rw [← hpair]
  obtain ⟨hfresh, _, _, hagain, _⟩ := unpack_brings_up_to_date hsound himage entries_image hroot
    linkless_disk (fun i e he => hfiles i (hlength ▸ (List.getElem?_eq_some_iff.mp he).1) e he)
    htimes hrun
  exact ⟨hsound, hpair, hfresh, hagain "/z" hcontents⟩

end Renewal

end Archive

end Gauntlet
