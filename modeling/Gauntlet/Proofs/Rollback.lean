import Gauntlet.Proofs.Extraction
import Mathlib.Data.Nat.Count

/-! # Unpacking fails cleanly

  Each entry of an archive passes without writing a file, or writes its target, or fails
  (`unpackEntry_cases`). Entries are taken one after the other up to the first that fails, so
  that the disk before every entry is known (`diskAfter`), and what each entry does carries
  over to all of them (`Going.steps`).

  A failing entry leaves its target as it was and no temporary file. It may leave new
  directories, and it changes the times of directories in which it has made or removed
  something (`Cleanly`).
-/

namespace Gauntlet

namespace Archive

open Gauntlet.Path (Plain Ordinary)
open Disk (Enters Located Furnishes Roomier Gained)

/-! ### One entry -/

section Entries

variable {archive image root : Text} {d : Disk} {e : Entry}

/-- An entry that writes no file: a special one, a directory, or a file whose target is not
    older. -/
inductive Passes (root : Text) (d : Disk) (e : Entry) : Disk → Prop where
  | special {cs : List Text} (htarget : target root e.name = .ok (Path.absolute cs))
      (hkind : e.kind = .special) : Passes root d e d
  | directory {cs : List Text} {d' : Disk} (hplain : Plain cs)
      (htarget : target root e.name = .ok (Path.absolute cs)) (hkind : e.kind = .directory)
      (hmade : Furnishes d (directoryMode e.permissions) cs (d', none)) : Passes root d e d'
  | upToDate {cs : List Text} {x : Location} {n : Node} (hplain : Plain cs)
      (htarget : target root e.name = .ok (Path.absolute cs)) (hkind : e.kind = .regular)
      (hfind : d.find true (Path.absolute cs) = .ok (x, n))
      (hnewer : n.modified.before e.modified = false) : Passes root d e d

/-- An entry that writes its target at a location. The target was missing or older. First the
    directories that were missing on the way are made, and then the contents of the entry are
    put at the target's own location, with the entry's mode and time. -/
inductive Writes (archive image root : Text) (d : Disk) (e : Entry) : Location → Disk → Prop where
  | intro {front : List Text} {name data : Text} {dir : Location} {ready : Disk}
      (hplain : Plain (front ++ [name]))
      (htarget : target root e.name = .ok (Path.absolute (front ++ [name])))
      (hkind : e.kind = .regular)
      (hdue : ∀ x n, d.find true (Path.absolute (front ++ [name])) = .ok (x, n) →
        n.modified.before e.modified = true)
      (hopened : e.opened archive image = .ok (.ok data))
      (hready : Furnishes d 0o755 front (ready, none)) (hlocated : Located ready front name dir)
      (hnodir : ∀ m t, ready.node? (dir ++ [name]) ≠ some (.dir m t)) :
      Writes archive image root d e (dir ++ [name])
        (ready.placed dir name (.file data e.fileMode e.modified.wrapped))

/-- A regular entry makes a temporary file beside its target, in a directory: its data could be
    opened, and a name for the file was free. -/
def MakesTemporary (archive image : Text) (d : Disk) (e : Entry) (front : List Text) (name : Text)
    (dir : Location) : Prop :=
  e.kind = .regular ∧ Enters d front dir ∧ ∃ contents t, e.opened archive image = .ok contents ∧
    createTemporary d (Path.absolute (front ++ [name])) = .ok t ∧ t.2.1.dropLast = dir

/-- An entry that fails: its name leads out of the destination, a directory cannot be made, or
    its target cannot be written. -/
inductive Fails (archive image root : Text) (d : Disk) (e : Entry) : Disk → Prop where
  | escaping {f : Failure} (htarget : target root e.name = .error f) :
      Fails archive image root d e d
  | unmade {cs above : List Text} {mode : Nat} {d' : Disk} {err : OsError} (hplain : Plain cs)
      (htarget : target root e.name = .ok (Path.absolute cs)) (habove : above <+: cs)
      (hmade : Furnishes d mode above (d', some err)) : Fails archive image root d e d'
  | unwritten {cs : List Text} {ready d' : Disk} (hplain : Plain cs)
      (htarget : target root e.name = .ok (Path.absolute cs))
      (hready : Furnishes d 0o755 cs.dropLast (ready, none))
      (hrest : d' = ready ∨ ∃ front name dir, cs = front ++ [name] ∧
        MakesTemporary archive image ready e front name dir ∧ d' = ready.touchDir dir) :
      Fails archive image root d e d'

theorem extract_done {cs : List Text} {d' : Disk} (hsound : d.Sound) (hplain : Plain cs)
    (htarget : target root e.name = .ok (Path.absolute cs)) (hkind : e.kind = .regular)
    (hdue : upToDate d e (Path.absolute cs) = false)
    (h : extract archive image d e (Path.absolute cs) = (d', none)) :
    ∃ x, Writes archive image root d e x d' := by
  have hmade := Disk.mkdirs_furnishes hsound hplain.dropLast 0o755
  unfold extract at h
  rw [Path.parent_absolute hplain] at h
  split at h
  · simp at h
  · rename_i ready hready
    rw [hready] at hmade
    split at h
    · simp at h
    · rename_i contents hopened
      obtain ⟨front, name, dir, data, rfl, rfl, hlocated, hnodir, rfl⟩ :=
        writeByTemporary_done (hmade.sound hsound) hplain h
      rw [List.dropLast_concat] at hmade
      refine ⟨_, .intro hplain htarget hkind (fun x n hfind => ?_) hopened hmade hlocated hnodir⟩
      simpa [upToDate, Disk.stat, hfind, Except.mapError] using hdue

theorem extract_failed {cs : List Text} {d' : Disk} {f : Failure} (hsound : d.Sound)
    (hplain : Plain cs) (htarget : target root e.name = .ok (Path.absolute cs))
    (hkind : e.kind = .regular) (h : extract archive image d e (Path.absolute cs) = (d', some f)) :
    Fails archive image root d e d' := by
  have hmade := Disk.mkdirs_furnishes hsound hplain.dropLast 0o755
  unfold extract at h
  rw [Path.parent_absolute hplain] at h
  split at h
  · rename_i hready
    rw [hready] at hmade
    obtain ⟨rfl, _⟩ := Prod.mk.inj h
    exact .unmade hplain htarget (List.dropLast_prefix cs) hmade
  · rename_i ready hready
    rw [hready] at hmade
    split at h
    · obtain ⟨rfl, _⟩ := Prod.mk.inj h
      exact .unwritten hplain htarget hmade (Or.inl rfl)
    · rename_i contents hopened
      refine .unwritten hplain htarget hmade ?_
      refine (writeByTemporary_failed (hmade.sound hsound) hplain h).imp_right ?_
      rintro ⟨front, name, dir, t, rfl, henters, hcreate, hdir, hrest⟩
      exact ⟨front, name, dir, rfl, ⟨hkind, henters, contents, t, hopened, hcreate, hdir⟩, hrest⟩

theorem unpackEntry_cases (archive image : Text) {root : Location} (hsound : d.Sound)
    (hroot : Plain root) (e : Entry) :
    (∃ d', unpackEntry archive image (Path.absolute root) d e = (d', 0, none) ∧
      Passes (Path.absolute root) d e d') ∨
    (∃ d' x, unpackEntry archive image (Path.absolute root) d e = (d', 1, none) ∧
      Writes archive image (Path.absolute root) d e x d') ∨
    ∃ d' f, unpackEntry archive image (Path.absolute root) d e = (d', 0, some f) ∧
      Fails archive image (Path.absolute root) d e d' := by
  unfold unpackEntry
  cases htarget : target (Path.absolute root) e.name with
  | error f => exact Or.inr (Or.inr ⟨d, f, rfl, .escaping htarget⟩)
  | ok t =>
    obtain ⟨cs, hplain, rfl, _⟩ := target_below hroot htarget
    cases hkind : e.kind with
    | special => exact Or.inl ⟨d, rfl, .special htarget hkind⟩
    | directory =>
      have hmade := Disk.mkdirs_furnishes hsound hplain (directoryMode e.permissions)
      dsimp only
      generalize d.mkdirs (Path.absolute cs) (directoryMode e.permissions) = r at hmade ⊢
      obtain ⟨d', err⟩ := r
      cases err with
      | none => exact Or.inl ⟨d', rfl, .directory hplain htarget hkind hmade⟩
      | some err =>
        exact Or.inr (Or.inr ⟨d', err.failure, rfl, .unmade hplain htarget List.prefix_rfl hmade⟩)
    | regular =>
      dsimp only
      by_cases hdue : upToDate d e (Path.absolute cs) = true
      · rw [if_pos hdue]
        left
        cases hfind : d.find true (Path.absolute cs) with
        | error err => simp [upToDate, Disk.stat, hfind, Except.mapError] at hdue
        | ok found =>
          have hnewer : found.2.modified.before e.modified = false := by
            simpa [upToDate, Disk.stat, hfind, Except.mapError] using hdue
          exact ⟨d, rfl, .upToDate hplain htarget hkind hfind hnewer⟩
      · rw [if_neg hdue]
        right
        have hdue : upToDate d e (Path.absolute cs) = false := by simpa using hdue
        cases hextract : extract archive image d e (Path.absolute cs) with
        | mk d' err =>
          cases err with
          | none =>
            obtain ⟨x, hwrites⟩ := extract_done hsound hplain htarget hkind hdue hextract
            exact Or.inl ⟨d', x, rfl, hwrites⟩
          | some f => exact Or.inr ⟨d', _, rfl, extract_failed hsound hplain htarget hkind hextract⟩

end Entries

/-! ### What an entry leaves alone -/

section Effects

variable {archive image root : Text} {d d' : Disk} {e : Entry} {x : Location}

theorem Passes.sound (h : Passes root d e d') (hsound : d.Sound) : d'.Sound := by
  cases h with
  | special _ _ => exact hsound
  | directory _ _ _ hmade => exact hmade.sound hsound
  | upToDate _ _ _ _ _ => exact hsound

theorem Passes.roomier (h : Passes root d e d') : Roomier ∅ d d' := by
  cases h with
  | special _ _ => exact Roomier.refl d
  | directory _ _ _ hmade => exact hmade.roomier
  | upToDate _ _ _ _ _ => exact Roomier.refl d

theorem Writes.sound (h : Writes archive image root d e x d') (hsound : d.Sound) : d'.Sound := by
  obtain ⟨_, _, _, _, _, hready, hlocated, hnodir⟩ := h
  exact (hready.sound hsound).put (Disk.alikeOff_placed _ _ _ _) hlocated.enters.dir hnodir

theorem Writes.roomier (h : Writes archive image root d e x d') : Roomier {x} d d' := by
  obtain ⟨_, _, _, _, _, hready, _, _⟩ := h
  exact (hready.roomier.mono (by simp)).trans (Roomier.of_alikeOff (Disk.alikeOff_placed _ _ _ _))

theorem Passes.not_writes (h : Passes root d e d') : ¬ Writes archive image root d e x d' := by
  rintro ⟨_, htarget, hkind, hdue, _, _, _, _⟩
  cases h with
  | special _ hspecial => simp [hkind] at hspecial
  | directory _ _ hdirectory _ => simp [hkind] at hdirectory
  | upToDate _ htarget' _ hfind hnewer =>
    rw [htarget'] at htarget
    rw [Except.ok.inj htarget] at hfind
    simp [hdue _ _ hfind] at hnewer

end Effects

/-! ### Entries one after the other -/

section Going

variable {archive image : Text} {root : Location} {d : Disk} {es : List Entry}

/-- Entries that come after others are not looked at if one of these has failed. -/
theorem unpackEntries_append (archive image root : Text) (d : Disk) (written : Nat)
    (es es' : List Entry) :
    unpackEntries archive image root d written (es ++ es') =
      match unpackEntries archive image root d written es with
      | (d', n, some f) => (d', n, some f)
      | (d', n, none) => unpackEntries archive image root d' n es' := by
  induction es generalizing d written with
  | nil => rfl
  | cons e es ih =>
    rw [List.cons_append, unpackEntries, unpackEntries]
    split
    · rfl
    · exact ih _ _

/-- The disk after a number of entries. -/
def diskAfter (archive image root : Text) (d : Disk) (es : List Entry) (i : Nat) : Disk :=
  (unpackEntries archive image root d 0 (es.take i)).1

/-- The entry at a position writes its target at a location. -/
def WritesAt (archive image root : Text) (d : Disk) (es : List Entry) (i : Nat) (x : Location) :
    Prop :=
  ∃ e, es[i]? = some e ∧ Writes archive image root (diskAfter archive image root d es i) e x
    (diskAfter archive image root d es (i + 1))

/-- The entry at a position passes. -/
def PassesAt (archive image root : Text) (d : Disk) (es : List Entry) (i : Nat) : Prop :=
  ∃ e, es[i]? = some e ∧ Passes root (diskAfter archive image root d es i) e
    (diskAfter archive image root d es (i + 1))

/-- A number of entries have been taken without a failure. -/
def Going (archive image root : Text) (d : Disk) (es : List Entry) (k : Nat) : Prop :=
  (unpackEntries archive image root d 0 (es.take k)).2.2 = none

theorem unpackEntries_take_succ (archive image root : Text) (d : Disk) {es : List Entry} {i : Nat}
    {e : Entry} (he : es[i]? = some e) (hgoing : Going archive image root d es i) :
    unpackEntries archive image root d 0 (es.take (i + 1)) =
      match unpackEntry archive image root (diskAfter archive image root d es i) e with
      | (d', n, f) => (d', (unpackEntries archive image root d 0 (es.take i)).2.1 + n, f) := by
  unfold Going at hgoing
  unfold diskAfter
  rw [List.take_add_one, he, Option.toList_some, unpackEntries_append]
  generalize unpackEntries archive image root d 0 (es.take i) = r at hgoing ⊢
  obtain ⟨d', n, f⟩ := r
  obtain rfl : f = none := hgoing
  dsimp only
  rw [unpackEntries]
  generalize unpackEntry archive image root d' e = r
  obtain ⟨d'', n', _ | f⟩ := r <;> rfl

/-- A failure stays. -/
theorem Going.of_succ {k : Nat} {root : Text} (h : Going archive image root d es (k + 1)) :
    Going archive image root d es k := by
  unfold Going at h ⊢
  rw [List.take_add_one, unpackEntries_append] at h
  generalize unpackEntries archive image root d 0 (es.take k) = r at h ⊢
  obtain ⟨d', n, _ | f⟩ := r
  · rfl
  · exact h

theorem Going.of_le {i k : Nat} {root : Text} (h : Going archive image root d es k) (hi : i ≤ k) :
    Going archive image root d es i := by
  induction k with
  | zero =>
    obtain rfl : i = 0 := by omega
    exact h
  | succ k ih =>
    by_cases hlast : i = k + 1
    · exact hlast ▸ h
    · exact ih h.of_succ (by omega)

open Classical in
/-- As long as no entry fails, each of them passes or writes its target, and those that write
    are counted. -/
theorem Going.steps (hsound : d.Sound) (hroot : Plain root) {k : Nat} (hk : k ≤ es.length)
    (h : Going archive image (Path.absolute root) d es k) :
    (diskAfter archive image (Path.absolute root) d es k).Sound ∧
    (unpackEntries archive image (Path.absolute root) d 0 (es.take k)).2.1 =
      Nat.count (fun i => ∃ x, WritesAt archive image (Path.absolute root) d es i x) k ∧
    ∀ i < k, PassesAt archive image (Path.absolute root) d es i ∨
      ∃ x, WritesAt archive image (Path.absolute root) d es i x := by
  induction k with
  | zero => exact ⟨hsound, by simp [unpackEntries], by simp⟩
  | succ k ih =>
    have hgoing := h.of_succ
    obtain ⟨hsound', hcount, hsteps⟩ := ih (by omega) hgoing
    have he : es[k]? = some es[k] := List.getElem?_eq_getElem (by omega)
    have hstep := unpackEntries_take_succ archive image (Path.absolute root) d he hgoing
    -- What the last entry does decides whether it is counted.
    have hlast : ((diskAfter archive image (Path.absolute root) d es (k + 1)).Sound ∧
        (unpackEntries archive image (Path.absolute root) d 0 (es.take (k + 1))).2.1 =
          Nat.count (fun i => ∃ x, WritesAt archive image (Path.absolute root) d es i x) (k + 1)) ∧
        (PassesAt archive image (Path.absolute root) d es k ∨
          ∃ x, WritesAt archive image (Path.absolute root) d es k x) := by
      rw [Nat.count_succ, ← hcount]
      unfold Going at h
      rcases unpackEntry_cases archive image hsound' hroot es[k] with
        ⟨d', hentry, hpasses⟩ | ⟨d', x, hentry, hwrites⟩ | ⟨d', f, hentry, _⟩ <;>
        rw [hentry] at hstep
      · have hafter : diskAfter archive image (Path.absolute root) d es (k + 1) = d' :=
          congrArg Prod.fst hstep
        have hnone : ¬ ∃ x, WritesAt archive image (Path.absolute root) d es k x := by
          rintro ⟨x, e, he', hwrites⟩
          obtain rfl : es[k] = e := Option.some.inj (he.symm.trans he')
          rw [hafter] at hwrites
          exact hpasses.not_writes hwrites
        rw [if_neg hnone, hstep, hafter]
        exact ⟨⟨hpasses.sound hsound', rfl⟩, Or.inl ⟨_, he, hafter ▸ hpasses⟩⟩
      · have hafter : diskAfter archive image (Path.absolute root) d es (k + 1) = d' :=
          congrArg Prod.fst hstep
        have hsome : ∃ x, WritesAt archive image (Path.absolute root) d es k x :=
          ⟨x, _, he, hafter ▸ hwrites⟩
        rw [if_pos hsome, hstep, hafter]
        exact ⟨⟨hwrites.sound hsound', rfl⟩, Or.inr hsome⟩
      · rw [hstep] at h
        simp at h
    refine ⟨hlast.1.1, hlast.1.2, fun i hi => ?_⟩
    by_cases hik : i = k
    · exact hik ▸ hlast.2
    · exact hsteps i (by omega)

/-- If an entry fails, those before it do not. -/
theorem exists_failing {root : Text} {j : Nat} {d' : Disk} {n : Nat} {f : Failure}
    (h : unpackEntries archive image root d 0 (es.take j) = (d', n, some f)) :
    ∃ k, k < j ∧ Going archive image root d es k ∧
      unpackEntries archive image root d 0 (es.take (k + 1)) = (d', n, some f) := by
  induction j with
  | zero => simp [unpackEntries] at h
  | succ j ih =>
    by_cases hgoing : Going archive image root d es j
    · exact ⟨j, by omega, hgoing, h⟩
    · have hbefore : unpackEntries archive image root d 0 (es.take j) = (d', n, some f) := by
        rw [List.take_add_one, unpackEntries_append] at h
        unfold Going at hgoing
        generalize unpackEntries archive image root d 0 (es.take j) = r at h hgoing ⊢
        obtain ⟨d'', n', _ | f'⟩ := r
        · exact absurd rfl hgoing
        · exact h
      obtain ⟨k, hk, hrest⟩ := ih hbefore
      exact ⟨k, by omega, hrest⟩

/-- Files that are there after some entries were there before, or one of the entries has
    written them. -/
theorem file_of_diskAfter {root : Text} {k : Nat}
    (hsteps : ∀ i < k, PassesAt archive image root d es i ∨ ∃ x, WritesAt archive image root d es i x)
    {l : Location} {data : Text} {m : Nat} {t : Instant}
    (hl : (diskAfter archive image root d es k).node? l = some (.file data m t)) :
    d.node? l = some (.file data m t) ∨ ∃ i < k, WritesAt archive image root d es i l := by
  induction k with
  | zero => exact Or.inl hl
  | succ k ih =>
    have hbefore : (diskAfter archive image root d es k).node? l = some (.file data m t) ∨
        WritesAt archive image root d es k l := by
      rcases hsteps k (by omega) with ⟨e, _, hpasses⟩ | ⟨x, hwrites⟩
      · exact Or.inl ((hpasses.roomier.node_iff (by simp) rfl).mp hl)
      · by_cases hlx : l = x
        · exact Or.inr (hlx ▸ hwrites)
        · obtain ⟨e, _, hwrites⟩ := hwrites
          exact Or.inl ((hwrites.roomier.node_iff (by simpa using hlx) rfl).mp hl)
    rcases hbefore with hbefore | hwrites
    · rcases ih (fun i hi => hsteps i (by omega)) hbefore with hd | ⟨i, hi, hwrites⟩
      · exact Or.inl hd
      · exact Or.inr ⟨i, by omega, hwrites⟩
    · exact Or.inr ⟨k, by omega, hwrites⟩

end Going

/-! ### Failing entries -/

/-- What a failing entry leaves behind. Its target is as it was. There may be new directories,
    and directories whose time has changed: those that have got a new directory, and the one
    that holds the target if a temporary file was made in it. -/
structure Cleanly (archive image root : Text) (d : Disk) (e : Entry) (d' : Disk) : Prop where
  spared : ∀ t, target root e.name = .ok t →
    ∀ r, d'.find false t = .ok r ↔ d.find false t = .ok r
  cwd : d'.cwd = d.cwd
  now : d'.now = d.now
  mask : d'.mask = d.mask
  node : ∀ l, d'.node? l = d.node? l ∨ (d.node? l = none ∧ ∃ m s, d'.node? l = some (.dir m s)) ∨
    ∃ m s, d.node? l = some (.dir m s) ∧ d'.node? l = some (.dir m d.now) ∧
      (Gained d l d' ∨ ∃ front c, target root e.name = .ok (Path.absolute (front ++ [c])) ∧
        MakesTemporary archive image d e front c l)

section Failing

variable {archive image root : Text} {d d' : Disk} {e : Entry}

theorem Cleanly.refl (archive image root : Text) (d : Disk) (e : Entry) :
    Cleanly archive image root d e d :=
  ⟨fun _ _ _ => Iff.rfl, rfl, rfl, rfl, fun _ => Or.inl rfl⟩

/-- A file that is there was there before. -/
theorem Cleanly.file (h : Cleanly archive image root d e d') {l : Location} {data : Text} {m : Nat} {t : Instant}
    (hl : d'.node? l = some (.file data m t)) : d.node? l = some (.file data m t) := by
  rcases h.node l with heq | ⟨_, m', s, hdir⟩ | ⟨m', s, _, hdir, _⟩
  · rw [← heq]
    exact hl
  · rw [hdir] at hl
    simp at hl
  · rw [hdir] at hl
    simp at hl

/-- New directories on the way to a target, but no more. -/
theorem cleanly_of_furnished {front made more : List Text} {base : Location} {m : Nat}
    (hsound : d.Sound) (hplain : Plain (front ++ (made ++ more)))
    (htarget : target root e.name = .ok (Path.absolute (front ++ (made ++ more))))
    (hmade : made ≠ []) (hmore : more ≠ []) (henters : Enters d front base)
    (hnew : Disk.Furnished d m base made d') : Cleanly archive image root d e d' := by
  refine ⟨?_, hnew.cwd.symm, hnew.now.symm, hnew.mask.symm, fun l => ?_⟩
  · intro t ht r
    obtain rfl : _ = t := Except.ok.inj (htarget.symm.trans ht)
    obtain ⟨hnow, hbefore⟩ := hnew.not_found hsound hmade henters hmore hplain false r
    exact ⟨fun h => absurd h hnow, fun h => absurd h hbefore⟩
  · rcases hnew.node hmade l with heq | hdir | ⟨m, s, hdir, hdir', hgained⟩
    · exact Or.inl heq
    · exact Or.inr (Or.inl hdir)
    · exact Or.inr (Or.inr ⟨m, s, hdir, hdir', Or.inl hgained⟩)

/-- A temporary file that was made in the directory of the target and removed. -/
theorem cleanly_touchDir {front : List Text} {name : Text} {dir : Location} (hsound : d.Sound)
    (hplain : Plain (front ++ [name]))
    (htarget : target root e.name = .ok (Path.absolute (front ++ [name])))
    (hmakes : MakesTemporary archive image d e front name dir) :
    Cleanly archive image root d e (d.touchDir dir) := by
  have henters : Enters d front dir := hmakes.2.1
  have halike : Disk.AlikeOff ∅ d (d.touchDir dir) := (Disk.AlikeOff.refl d).touchDir dir
  have hgrows := (Roomier.of_alikeOff halike).grows
  have hshrinks := (Roomier.of_alikeOff halike.symm).grows
  obtain ⟨m, s, hdir⟩ := henters.dir
  have hsound' : (d.touchDir dir).Sound := by
    intro l c n hn
    obtain ⟨n', hn'⟩ := (halike.node (l ++ [c]) (by simp)).some hn
    obtain ⟨m, t, hl⟩ := hsound l c n' hn'
    obtain ⟨t', hl'⟩ := hgrows.dir hl
    exact ⟨m, t', hl'⟩
  refine ⟨?_, rfl, rfl, rfl, fun l => ?_⟩
  · rintro t ht ⟨x, n⟩
    obtain rfl : _ = t := Except.ok.inj (htarget.symm.trans ht)
    -- The target is in the directory, so it is not the directory itself.
    have hnode : (d.touchDir dir).node? (dir ++ [name]) = d.node? (dir ++ [name]) := by
      rw [Disk.node?_touchDir, if_neg (by simp)]
    rw [Disk.find_absolute_concat hplain, Disk.find_absolute_concat hplain]
    constructor
    · rintro ⟨dir', hlocated, rfl, hx⟩
      have hlocated' := hlocated.grown hsound' hshrinks
      obtain rfl := hlocated'.enters.unique henters
      exact ⟨dir', hlocated', rfl, hnode ▸ hx⟩
    · rintro ⟨dir', hlocated, rfl, hx⟩
      obtain rfl := hlocated.enters.unique henters
      exact ⟨dir', hlocated.grown hsound hgrows, rfl, hnode ▸ hx⟩
  · by_cases hl : l = dir
    · subst hl
      refine Or.inr (Or.inr ⟨m, s, hdir, ?_, Or.inr ⟨front, name, htarget, hmakes⟩⟩)
      rw [Disk.node?_touchDir, if_pos rfl, hdir]
      rfl
    · left
      rw [Disk.node?_touchDir, if_neg hl]

/-- A new directory shows no change if a temporary file was in it. -/
theorem touchDir_of_now {dir : Location} {m : Nat} (h : d.node? dir = some (.dir m d.now)) :
    d.touchDir dir = d := by
  refine Disk.ext_node (fun l => ?_) rfl rfl rfl rfl
  rw [Disk.node?_touchDir]
  split
  · rename_i hl
    rw [hl, h]
    rfl
  · rfl

theorem Fails.cleanly (h : Fails archive image root d e d') (hsound : d.Sound) :
    Cleanly archive image root d e d' := by
  cases h with
  | escaping _ => exact Cleanly.refl archive image root d e
  | unmade hplain htarget habove hmade =>
    cases hmade with
    | unchanged _ => exact Cleanly.refl archive image root d e
    | @made front made rest base _ _ hcs hmade henters hnew herr _ =>
      obtain ⟨more, rfl⟩ := habove
      have hrest : rest ≠ [] := fun hnil => by simpa using herr.mpr hnil
      have hsplit : front ++ made ++ rest ++ more = front ++ (made ++ (rest ++ more)) := by simp
      rw [hcs, hsplit] at hplain htarget
      exact cleanly_of_furnished hsound hplain htarget hmade (by simp [hrest]) henters hnew
  | @unwritten cs ready _ hplain htarget hready hrest =>
    cases hready with
    | unchanged _ =>
      rcases hrest with rfl | ⟨front, name, dir, rfl, hmakes, rfl⟩
      · exact Cleanly.refl archive image root _ e
      · exact cleanly_touchDir hsound hplain htarget hmakes
    | @made front made rest base _ _ hcs hmade henters hnew herr hfound =>
      obtain rfl := herr.mp rfl
      have habove : cs.dropLast = front ++ made := by simpa using hcs
      have hne : cs ≠ [] := by
        rintro rfl
        simp [hmade] at habove
      obtain ⟨name, rfl⟩ : ∃ name, cs = front ++ made ++ [name] := by
        rw [← habove]
        exact ⟨_, (List.dropLast_concat_getLast hne).symm⟩
      have hplain' : Plain (front ++ made) := hplain.sublist (List.sublist_append_left _ [name])
      have hsame : d' = ready := by
        rcases hrest with heq | ⟨front', name', dir, hcs', ⟨_, henters', _⟩, heq⟩
        · exact heq
        · -- The temporary file was in the last of the new directories.
          obtain ⟨rfl, _⟩ := List.append_inj' hcs' rfl
          obtain ⟨x, m, t, hfind⟩ := hfound rfl
          rw [habove] at hfind
          have hx := henters'.eq_of_find hplain' hfind
          have hplain'' : Plain (front ++ (made ++ [])) := by simpa using hplain'
          have hplace := hnew.place hsound hmade henters hplain'' true
          rw [List.append_nil] at hplace
          have hx' := hplace.found_iff (Disk.find_eq_ok.mp hfind).1
          have hnow := hnew.made made hmade List.prefix_rfl
          rw [← hx', hx, hnew.now] at hnow
          rw [heq, touchDir_of_now hnow]
      subst hsame
      rw [List.append_assoc] at hplain htarget
      exact cleanly_of_furnished hsound hplain htarget hmade (by simp) henters hnew

end Failing

/-- If entries fail, then at one of them, which neither passes nor writes its target. -/
theorem unpackEntries_fails {archive image root : Text} {d d' : Disk} {es : List Entry} {n : Nat}
    {f : Failure} (hsound : d.Sound) (hroot : ∃ cs, Plain cs ∧ root = Path.absolute cs)
    (h : unpackEntries archive image root d 0 es = (d', n, some f)) :
    ∃ k e, es[k]? = some e ∧ k ≤ es.length ∧ Going archive image root d es k ∧
      (diskAfter archive image root d es k).Sound ∧
      n = (unpackEntries archive image root d 0 (es.take k)).2.1 ∧
      Fails archive image root (diskAfter archive image root d es k) e d' ∧
      unpackEntries archive image root d 0 (es.take (k + 1)) = (d', n, some f) := by
  obtain ⟨cs, hplain, rfl⟩ := hroot
  rw [← List.take_length (l := es)] at h
  obtain ⟨k, hk, hgoing, hfails⟩ := exists_failing h
  have he : es[k]? = some es[k] := List.getElem?_eq_getElem hk
  obtain ⟨hsound', _, _⟩ := hgoing.steps hsound hplain (by omega)
  have hlast := unpackEntries_take_succ archive image _ d he hgoing
  rw [hfails] at hlast
  rcases unpackEntry_cases archive image hsound' hplain es[k] with
    ⟨d'', hentry, _⟩ | ⟨d'', x, hentry, _⟩ | ⟨d'', f', hentry, hfails'⟩
  · rw [hentry] at hlast
    simp at hlast
  · rw [hentry] at hlast
    simp at hlast
  · rw [hentry] at hlast
    obtain ⟨rfl, hn, _⟩ := by simpa only [Prod.mk.injEq] using hlast
    rw [Nat.add_zero] at hn
    exact ⟨k, es[k], he, by omega, hgoing, hsound', hn, hfails', hfails⟩

/-- Unpacking that fails has not begun, or it fails at the entries of the archive. -/
theorem unpack_failed {d d' : Disk} {archive dest : Text} {n : Nat} {f : Failure}
    (h : unpack d archive dest = (d', n, some f)) :
    (d' = d ∧ n = 0 ∧ ((∃ err, d.contents archive = .error err) ∨
      (∃ image fault, d.contents archive = .ok image ∧ entries image = .error fault) ∨
      ∃ f, d.absolute dest = .error f)) ∨
    ∃ image es root, d.contents archive = .ok image ∧ entries image = .ok es ∧
      d.absolute dest = .ok root ∧ unpackEntries archive image root d 0 es = (d', n, some f) := by
  unfold unpack at h
  dsimp only at h
  cases himage : d.contents archive with
  | error err =>
    rw [himage] at h
    simp only [Prod.mk.injEq] at h
    exact Or.inl ⟨h.1.symm, h.2.1.symm, Or.inl ⟨err, rfl⟩⟩
  | ok image =>
    rw [himage] at h
    dsimp only at h
    cases hes : entries image with
    | error fault =>
      rw [hes] at h
      simp only [Prod.mk.injEq] at h
      exact Or.inl ⟨h.1.symm, h.2.1.symm, Or.inr (Or.inl ⟨image, fault, rfl, hes⟩)⟩
    | ok es =>
      rw [hes] at h
      dsimp only at h
      cases habsolute : d.absolute dest with
      | error f' =>
        rw [habsolute] at h
        simp only [Prod.mk.injEq] at h
        exact Or.inl ⟨h.1.symm, h.2.1.symm, Or.inr (Or.inr ⟨f', rfl⟩)⟩
      | ok root =>
        rw [habsolute] at h
        exact Or.inr ⟨image, es, root, rfl, hes, rfl, h⟩

open Classical in
/-- Unpacking that fails either has not begun, or fails at an entry. Those before it have passed
    or written their targets, and the number of those that have written is returned. The
    failing entry has left its target as it was, and nothing else but directories. Every file
    was there before or is the target of an entry that has written it, so that no temporary
    file is left. What entries come later does not matter. -/
theorem unpack_fails_cleanly {d d' : Disk} {archive dest : Text} {n : Nat} {f : Failure}
    (hsound : d.Sound) (h : unpack d archive dest = (d', n, some f)) :
    (d' = d ∧ n = 0 ∧ ((∃ err, d.contents archive = .error err) ∨
      (∃ image fault, d.contents archive = .ok image ∧ entries image = .error fault) ∨
      ∃ f, d.absolute dest = .error f)) ∨
    ∃ image es root k e, d.contents archive = .ok image ∧ entries image = .ok es ∧
      d.absolute dest = .ok root ∧ es[k]? = some e ∧
      (∀ i < k, PassesAt archive image root d es i ∨ ∃ x, WritesAt archive image root d es i x) ∧
      n = Nat.count (fun i => ∃ x, WritesAt archive image root d es i x) k ∧
      Cleanly archive image root (diskAfter archive image root d es k) e d' ∧
      (∀ l data m t, d'.node? l = some (.file data m t) → d.node? l = some (.file data m t) ∨
        ∃ i < k, WritesAt archive image root d es i l) ∧
      ∀ later, unpackEntries archive image root d 0 (es.take (k + 1) ++ later) = (d', n, some f) := by
  rcases unpack_failed h with hopen | ⟨image, es, root, himage, hes, habsolute, hrun⟩
  · exact Or.inl hopen
  · right
    have hroot : ∃ cs, Plain cs ∧ root = Path.absolute cs := ⟨_, absolute_eq_ok habsolute⟩
    obtain ⟨k, e, he, hk, hgoing, hsound', hn, hfails, hlast⟩ :=
      unpackEntries_fails hsound hroot hrun
    obtain ⟨cs, hplain, rfl⟩ := hroot
    obtain ⟨_, hcount, hsteps⟩ := hgoing.steps hsound hplain hk
    have hcleanly := hfails.cleanly hsound'
    refine ⟨image, es, _, k, e, himage, hes, habsolute, he, hsteps, hn.trans hcount, hcleanly, ?_, ?_⟩
    · intro l data m t hl
      exact file_of_diskAfter hsteps (hcleanly.file hl)
    · intro later
      rw [unpackEntries_append, hlast]

/-! ### A sample -/

namespace Corrupt

/-- An archive with the files `b`, `d/a` and `c`, of which the second has too little data. -/
def image : Text :=
  [80, 75, 3, 4, 20, 0, 0, 0, 0, 0, 0, 0, 33, 40, 0, 0, 0, 0, 1, 0, 0, 0, 1, 0, 0, 0, 1, 0, 0, 0,
    98, 120, 80, 75, 3, 4, 20, 0, 0, 0, 0, 0, 0, 0, 33, 40, 0, 0, 0, 0, 1, 0, 0, 0, 2, 0, 0, 0, 3,
    0, 0, 0, 100, 47, 97, 120, 80, 75, 3, 4, 20, 0, 0, 0, 0, 0, 0, 0, 33, 40, 0, 0, 0, 0, 1, 0, 0,
    0, 1, 0, 0, 0, 1, 0, 0, 0, 99, 120, 80, 75, 1, 2, 20, 3, 20, 0, 0, 0, 0, 0, 0, 0, 33, 40, 0, 0,
    0, 0, 1, 0, 0, 0, 1, 0, 0, 0, 1, 0, 0, 0, 0, 0, 0, 0, 0, 0, 0, 0, 164, 129, 0, 0, 0, 0, 98, 80,
    75, 1, 2, 20, 3, 20, 0, 0, 0, 0, 0, 0, 0, 33, 40, 0, 0, 0, 0, 1, 0, 0, 0, 2, 0, 0, 0, 3, 0, 0,
    0, 0, 0, 0, 0, 0, 0, 0, 0, 164, 129, 32, 0, 0, 0, 100, 47, 97, 80, 75, 1, 2, 20, 3, 20, 0, 0,
    0, 0, 0, 0, 0, 33, 40, 0, 0, 0, 0, 1, 0, 0, 0, 1, 0, 0, 0, 1, 0, 0, 0, 0, 0, 0, 0, 0, 0, 0, 0,
    164, 129, 66, 0, 0, 0, 99, 80, 75, 5, 6, 0, 0, 0, 0, 3, 0, 3, 0, 143, 0, 0, 0, 98, 0, 0, 0, 0,
    0]

/-- The entries of the archive. -/
def listed : List Entry :=
  match entries image with
  | .ok es => es
  | .error _ => []

/-- The archive `/z`, and a directory `/u` to unpack it in, with an old directory `/u/d`. -/
def disk : Disk where
  nodes := (((SortedMap.empty.insert [] (.dir 0o755 ⟨0, 0⟩)).insert [("u" : Text)]
    (.dir 0o755 ⟨0, 0⟩)).insert [("u" : Text), ("d" : Text)] (.dir 0o755 ⟨0, 0⟩)).insert
    [("z" : Text)] (.file image 0o644 ⟨0, 0⟩)
  cwd := none
  now := ⟨1, 0⟩

theorem unpack_disk :
    (unpack disk "/z" "/u").2.1 = 1 ∧ (unpack disk "/z" "/u").2.2.isSome = true ∧
    (unpack disk "/z" "/u").1.node? [("u" : Text), ("d" : Text)] = some (.dir 0o755 ⟨1, 0⟩) := by
  decide +kernel

theorem unpack_fails_cleanly_corrupt :
    disk.Sound ∧ (unpack disk "/z" "/u").2.1 = 1 ∧ ∃ f, (unpack disk "/z" "/u").2.2 = some f ∧
      ∃ image es root k e, entries image = .ok es ∧ es[k]? = some e ∧
        Cleanly "/z" image root (diskAfter "/z" image root disk es k) e (unpack disk "/z" "/u").1 ∧
        ∀ later, unpackEntries "/z" image root disk 0 (es.take (k + 1) ++ later) =
          ((unpack disk "/z" "/u").1, 1, some f) := by
  have hsound : disk.Sound := by decide +kernel
  obtain ⟨hwritten, hfailed, _⟩ := unpack_disk
  obtain ⟨f, hf⟩ := Option.isSome_iff_exists.mp hfailed
  have hunpack : unpack disk "/z" "/u" = ((unpack disk "/z" "/u").1, 1, some f) := by
    rw [← hwritten, ← hf]
  refine ⟨hsound, hwritten, f, hf, ?_⟩
  rcases unpack_fails_cleanly hsound hunpack with ⟨_, hzero, _⟩ |
    ⟨image, es, root, k, e, _, hes, _, he, _, _, hcleanly, _, hlater⟩
  · simp at hzero
  · exact ⟨image, es, root, k, e, hes, he, hcleanly, hlater⟩

/-- The second entry fails, and an old directory has another time than before it. -/
theorem failing_entry_changes_time :
    (unpack disk "/z" "/u").2.1 = 1 ∧ (unpack disk "/z" "/u").2.2.isSome = true ∧
    (diskAfter "/z" image "/u" disk listed 1).node? [("u" : Text), ("d" : Text)] =
      some (.dir 0o755 ⟨0, 0⟩) ∧
    (unpack disk "/z" "/u").1.node? [("u" : Text), ("d" : Text)] = some (.dir 0o755 ⟨1, 0⟩) := by
  obtain ⟨hwritten, hfailed, hchanged⟩ := unpack_disk
  exact ⟨hwritten, hfailed, by decide +kernel, hchanged⟩

end Corrupt

end Archive

end Gauntlet
