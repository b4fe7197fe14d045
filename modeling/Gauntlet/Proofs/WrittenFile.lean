import Gauntlet.Proofs.Growth
import Gauntlet.Proofs.LogArea

/-! # Files are found where they were written

  Making directories and writing a file take away nothing that a path leads through, so that the
  disk only grows (`mkdirs_grows`). After the writing the path leads to the file that was written
  (`bytes_written`), be it new or not and through links or not.

  This fails for a relative path if the working directory has been deleted: the file may then be
  made where that directory had been.
-/

namespace Gauntlet.Disk

/-! ### Free places -/

/-- A place that a walk finds free is in a directory, and nothing is there. -/
theorem walkWith_free {d : Disk} {follow : Bool}
    {onLink : Location → List Text → Except Errno Place} {dir : Location} {c : Text}
    (hlink : ∀ l cs, onLink l cs = .ok (.free dir c) →
      LooksUp d dir c ∧ d.node? (dir ++ [c]) = none)
    (l : Location) (cs : List Text) (h : d.walkWith follow onLink l cs = .ok (.free dir c)) :
    LooksUp d dir c ∧ d.node? (dir ++ [c]) = none := by
  induction cs generalizing l with
  | nil => simp [walkWith] at h
  | cons b rest ih =>
    cases goes_of_walkWith h with
    | here _ h' => exact ih l h'
    | up _ h' => exact ih l.dropLast h'
    | down _ _ _ h' => exact ih (l ++ [b]) h'
    | link _ _ _ h' => exact hlink _ _ h'
    | last _ _ _ _ hr => simp at hr
    | free hc hnode _ hr =>
      obtain ⟨rfl, rfl⟩ : dir = l ∧ c = b := by simpa using hr
      exact ⟨hc, hnode⟩

theorem walk_free {d : Disk} {follow : Bool} {dir : Location} {c : Text} (n : Nat) (l : Location)
    (cs : List Text) (h : d.walk follow n l cs = .ok (.free dir c)) :
    LooksUp d dir c ∧ d.node? (dir ++ [c]) = none := by
  induction n generalizing l cs with
  | zero => exact walkWith_free (by simp) l cs h
  | succ n ih => exact walkWith_free ih l cs h

theorem place_free {d : Disk} {follow : Bool} {p : Text} {dir : Location} {c : Text}
    (h : d.place follow p = .ok (.free dir c)) :
    (∃ m t, d.node? dir = some (.dir m t)) ∧ d.node? (dir ++ [c]) = none := by
  unfold place at h
  cases hl : d.start p with
  | error e => simp [hl] at h
  | ok l =>
    rw [hl] at h
    obtain ⟨hc, hnone⟩ := walk_free linkLimit l (steps p) h
    exact ⟨dir_of_footing hc.footing, hnone⟩

/-! ### New directories -/

theorem AlikeBeyond.grows {x : Location} {times : Set Location} {d d' : Disk}
    (h : AlikeBeyond {x} times d d') (hx : Grown (d.node? x) (d'.node? x)) : Grows d d' := by
  refine ⟨h.cwd, fun l => ?_⟩
  by_cases heq : l = x
  · exact heq ▸ hx
  · exact (h.node l heq).grown

theorem mkdir_grows {d d' : Disk} {p : Text} {mode : Nat} (hsound : d.Sound)
    (h : d.mkdir p mode = .ok d') : d'.Sound ∧ Grows d d' := by
  unfold mkdir at h
  dsimp only at h
  split at h
  · simp at h
  · simp at h
  · rename_i dir name hplace
    obtain ⟨hdir, hnone⟩ := place_free hplace
    split at h
    · obtain rfl := Except.ok.inj h
      have hbeyond := AlikeBeyond.created d dir name (.dir (d.created mode) d.now)
      exact ⟨hsound.put hbeyond.alikeOff hdir (by simp [hnone]),
        hbeyond.grows (hnone ▸ .vacant _)⟩
    · simp at h

theorem mkdirUnlessThere_grows {d : Disk} (hsound : d.Sound) (p : Text) (mode : Nat) :
    (d.mkdirUnlessThere p mode).1.Sound ∧ Grows d (d.mkdirUnlessThere p mode).1 := by
  unfold mkdirUnlessThere
  split
  · rename_i hmade
    exact mkdir_grows hsound hmade
  · split <;> exact ⟨hsound, Grows.refl d⟩

theorem mkdirsWithin_grows {d : Disk} (hsound : d.Sound) (fuel : Nat) (p : Text) (mode : Nat) :
    (mkdirsWithin fuel d p mode).1.Sound ∧ Grows d (mkdirsWithin fuel d p mode).1 := by
  induction fuel generalizing p with
  | zero => exact ⟨hsound, Grows.refl d⟩
  | succ k ih =>
    unfold mkdirsWithin
    split
    · exact ⟨hsound, Grows.refl d⟩
    split
    · exact mkdirUnlessThere_grows hsound p mode
    · rename_i c _
      obtain ⟨habove, hgrows⟩ := ih c
      split
      · rename_i heq
        rw [heq] at habove hgrows
        exact ⟨habove, hgrows⟩
      · rename_i heq
        rw [heq] at habove hgrows
        obtain ⟨hsound', hgrows'⟩ := mkdirUnlessThere_grows habove p mode
        exact ⟨hsound', hgrows.trans hgrows'⟩

theorem mkdirs_grows {d : Disk} (hsound : d.Sound) (p : Text) (mode : Nat) :
    (d.mkdirs p mode).1.Sound ∧ Grows d (d.mkdirs p mode).1 :=
  mkdirsWithin_grows hsound (p.length + 1) p mode

/-! ### Written files -/

/-- The bytes of the file that a path leads to. -/
def bytes? (d : Disk) (p : Text) : Option Text :=
  match d.find true p with
  | .ok (_, .file data _ _) => some data
  | _ => none

/-- A file that has been written is found under its path with what was written. -/
theorem bytes_written {d d' : Disk} {p data : Text} {mode : Nat} (hsound : d.Sound)
    (hstart : d.Starts p) (h : d.writeFile p data mode = .ok d') : d'.bytes? p = some data := by
  unfold writeFile at h
  split at h
  · simp at h
  rename_i x opened hopened
  obtain rfl := Except.ok.inj h
  obtain ⟨q, hplace, rfl, hfile, ⟨m, hempty⟩, hbeyond⟩ := openForWriting_effect hopened
  have hwritten : (opened.append q.location data).node? q.location =
      some (.file data m opened.now) := by
    rw [append, hempty]
    dsimp only
    rw [node?_put, if_pos rfl, List.nil_append]
  have hgrown : Grown (d.node? q.location) ((opened.append q.location data).node? q.location) ∧
      (d.node? []).isSome = true ∧ (opened.append q.location data).Taken q := by
    rw [hwritten]
    -- The path leads to a file that is overwritten, or to a free place in a directory.
    cases q with
    | found l =>
      obtain ⟨data', m', t', hl⟩ := hfile l rfl
      refine ⟨?_, hsound.isSome_root (l := l) (by simp [hl]), taken_found _ l⟩
      rw [Place.location, hl]
      exact .file data' m' t' data m opened.now
    | free dir c =>
      obtain ⟨⟨m', t', hdir⟩, hnone⟩ := place_free hplace
      refine ⟨?_, hsound.isSome_root (l := dir) (by simp [hdir]), _, hwritten, by simp⟩
      rw [Place.location, hnone]
      exact .vacant _
  obtain ⟨hnode, hroot, htaken⟩ := hgrown
  have hgrows : Grows d (opened.append q.location data) :=
    (hbeyond.append (Set.mem_singleton _) data).grows hnode
  have hfind : (opened.append q.location data).find true p =
      .ok (q.location, .file data m opened.now) :=
    find_eq_ok.mpr ⟨place_grown hsound hgrows htaken hroot hstart hplace, hwritten⟩
  rw [bytes?, hfind]

end Gauntlet.Disk
