import Gauntlet.Proofs.Growth

/-! # Extracting a file

  What extracting a file does to a disk that may have links anywhere. First come the missing
  directories on the way to the target, each inside the one before (`mkdirs_furnishes`). Then a
  temporary file is made in the directory of the target, filled, and moved over the target;
  all that can be seen in the end is the new file (`writeByTemporary_done`). If the temporary
  file cannot be filled or moved it is removed, and all that can be seen is that its directory
  has changed (`writeByTemporary_failed`).
-/

namespace Gauntlet

namespace Disk

open Gauntlet.Path (Plain Ordinary)

/-! ### A node in a directory -/

/-- The disk with a node put into a directory, which changes by that. -/
def placed (d : Disk) (dir : Location) (c : Text) (n : Node) : Disk :=
  (d.put (dir ++ [c]) n).touchDir dir

section Placed

variable {d : Disk} {dir : Location} {c : Text} {n : Node}

theorem node?_placed (d : Disk) (dir : Location) (c : Text) (n : Node) (l : Location) :
    (d.placed dir c n).node? l = if l = dir ++ [c] then some n else (d.touchDir dir).node? l := by
  unfold placed
  by_cases hl : l = dir ++ [c]
  · rw [hl, if_pos rfl]
    exact node?_created d dir c n
  · rw [if_neg hl, node?_touchDir, node?_touchDir, node?_put, if_neg hl]
    rfl

theorem alikeOff_placed (d : Disk) (dir : Location) (c : Text) (n : Node) :
    AlikeOff {dir ++ [c]} d (d.placed dir c n) := AlikeOff.created d dir c n

/-- What is put in the place of the node takes its place. -/
theorem put_placed (d : Disk) (dir : Location) (c : Text) (n n' : Node) :
    (d.placed dir c n).put (dir ++ [c]) n' = d.placed dir c n' := by
  refine ext_node (fun l => ?_) rfl rfl rfl rfl
  rw [node?_put, node?_placed, node?_placed]
  by_cases hl : l = dir ++ [c]
  · rw [if_pos hl, if_pos hl]
  · rw [if_neg hl, if_neg hl, if_neg hl]

/-- A directory that has changed can change no more at the same time. -/
theorem touched_touchDir (d : Disk) (dir : Location) :
    ((d.touchDir dir).node? dir).map (Node.touched d.now) = (d.touchDir dir).node? dir := by
  rw [node?_touchDir, if_pos rfl]
  rcases d.node? dir with _ | (⟨a, m, t⟩ | ⟨m, t⟩ | target) <;> rfl

/-- A node that is taken away again leaves nothing but the time of the directory. -/
theorem drop_placed (hvacant : d.node? (dir ++ [c]) = none) :
    ((d.placed dir c n).drop (dir ++ [c])).touchDir dir = d.touchDir dir := by
  refine ext_node (fun l => ?_) rfl rfl rfl rfl
  rw [node?_touchDir, node?_drop, node?_placed]
  by_cases hl : l = dir ++ [c]
  · rw [if_neg (by simp [hl]), if_pos hl, node?_touchDir, if_neg (by simp [hl]), hl, hvacant]
  · rw [if_neg hl, if_neg hl]
    by_cases hdir : l = dir
    · rw [if_pos hdir, hdir]
      exact touched_touchDir d dir
    · rw [if_neg hdir]

/-- A node that is moved within its directory might have been put there. -/
theorem moved_placed (hsound : d.Sound) {new : Text} (hne : c ≠ new)
    (hdir : ∃ m t, d.node? dir = some (.dir m t)) (hvacant : d.node? (dir ++ [c]) = none)
    (hn : n.isDir = false) :
    (((d.placed dir c n).moved (dir ++ [c]) (dir ++ [new]) n).touchDir dir).touchDir dir =
      d.placed dir new n := by
  have hsound' : (d.placed dir c n).Sound :=
    hsound.put (alikeOff_placed d dir c n) hdir (by simp [hvacant])
  have hleaf : (d.placed dir c n).tree (dir ++ [c]) = [] := by
    refine hsound'.tree_eq_nil fun m t hnode => ?_
    rw [node?_placed, if_pos rfl] at hnode
    rw [Option.some.inj hnode] at hn
    simp [Node.isDir] at hn
  have hnew : dir ++ [new] ≠ dir ++ [c] := by simpa using Ne.symm hne
  rw [moved_leaf hleaf, touchDir_touchDir]
  -- At the old name there is nothing again, and the directory has changed either way.
  refine ext_node (fun l => ?_) rfl rfl rfl rfl
  rw [node?_touchDir, node?_put, node?_drop, node?_placed, node?_placed]
  by_cases hl : l = dir ++ [new]
  · rw [if_neg (by simp [hl]), if_pos hl, if_pos hl]
  rw [if_neg hl, if_neg hl]
  by_cases hl' : l = dir ++ [c]
  · rw [if_neg (by simp [hl']), if_pos hl', node?_touchDir, if_neg (by simp [hl']), hl', hvacant]
  rw [if_neg hl', if_neg hl']
  by_cases hdir : l = dir
  · rw [if_pos hdir, hdir]
    exact touched_touchDir d dir
  · rw [if_neg hdir]

/-- Taking a free location, or that of a file, takes nothing away. -/
theorem grows_placed (hold : Grown (d.node? (dir ++ [c])) (some n)) :
    Grows d (d.placed dir c n) := by
  refine ⟨rfl, fun l => ?_⟩
  by_cases hl : l = dir ++ [c]
  · rw [hl, node?_placed, if_pos rfl]
    exact hold
  · exact ((alikeOff_placed d dir c n).node l (by simpa using hl)).grown

/-- What is put at the location of a name is found by the name. -/
theorem find_placed {front : List Text} (hplain : Plain (front ++ [c])) (hsound : d.Sound)
    (hlocated : Located d front c dir) (hold : Grown (d.node? (dir ++ [c])) (some n))
    (hn : ∀ target, n ≠ .link target) :
    (d.placed dir c n).find true (Path.absolute (front ++ [c])) = .ok (dir ++ [c], n) := by
  refine find_follow ((find_absolute_concat hplain).mpr ⟨dir, ?_, rfl, ?_⟩) hn
  · exact hlocated.grown hsound (grows_placed hold)
  · rw [node?_placed, if_pos rfl]

end Placed

/-! ### New directories -/

/-- The second disk has new directories one inside the other, from a location on. -/
structure Furnished (d : Disk) (m : Nat) (base : Location) (cs : List Text) (d' : Disk) : Prop where
  sound : d'.Sound
  cwd : d.cwd = d'.cwd
  now : d.now = d'.now
  mask : d.mask = d'.mask
  vacant : ∀ k, k ≠ [] → k <+: cs → d.node? (base ++ k) = none
  made : ∀ k, k ≠ [] → k <+: cs → d'.node? (base ++ k) = some (.dir m d.now)
  holder : ∃ m' t, d.node? base = some (.dir m' t) ∧ d'.node? base = some (.dir m' d.now)
  elsewhere : ∀ l, (∀ k, k <+: cs → l ≠ base ++ k) → d'.node? l = d.node? l

section Furnished

variable {d d' : Disk} {m : Nat} {base : Location} {cs : List Text} {c : Text}

theorem furnished_singleton (hsound : d.Sound) (hbase : ∃ m t, d.node? base = some (.dir m t))
    (hvacant : d.node? (base ++ [c]) = none) :
    Furnished d m base [c] (d.placed base c (.dir m d.now)) := by
  have honly : ∀ k, k ≠ [] → k <+: [c] → k = [c] := by
    intro k hk hpre
    rcases List.prefix_cons_iff.mp hpre with rfl | ⟨k', rfl, hk'⟩
    · exact absurd rfl hk
    · rw [List.prefix_nil.mp hk']
  refine ⟨?_, rfl, rfl, rfl, ?_, ?_, ?_, ?_⟩
  · exact hsound.put (alikeOff_placed d base c _) hbase (by simp [hvacant])
  · intro k hk hpre
    rw [honly k hk hpre]
    exact hvacant
  · intro k hk hpre
    rw [honly k hk hpre, node?_placed, if_pos rfl]
  · obtain ⟨m', t, hdir⟩ := hbase
    refine ⟨m', t, hdir, ?_⟩
    rw [node?_placed, if_neg (by simp), node?_touchDir, if_pos rfl, hdir]
    rfl
  · intro l hl
    have hne : l ≠ base := by simpa using hl [] List.nil_prefix
    rw [node?_placed, if_neg (hl [c] List.prefix_rfl), node?_touchDir, if_neg hne]

/-- Nothing is beyond the last of the new directories. -/
theorem Furnished.vacant_beyond (h : Furnished d m base cs d') (hsound : d.Sound) (hcs : cs ≠ [])
    {more : List Text} (hmore : more ≠ []) : d'.node? (base ++ (cs ++ more)) = none := by
  rw [h.elsewhere, ← List.append_assoc]
  · exact hsound.vacant_below (h.vacant cs hcs List.prefix_rfl) more
  · intro k hk heq
    have hlength := congrArg List.length heq
    have hle := hk.length_le
    have hpos := List.length_pos_iff.mpr hmore
    simp only [List.length_append] at hlength
    omega

theorem Furnished.concat (h : Furnished d m base cs d') (hsound : d.Sound) (hcs : cs ≠ []) (c : Text) :
    Furnished d m base (cs ++ [c]) (d'.placed (base ++ cs) c (.dir m d'.now)) := by
  have hlast := h.made cs hcs List.prefix_rfl
  have hvacant : d'.node? (base ++ cs ++ [c]) = none := by
    rw [List.append_assoc]
    exact h.vacant_beyond hsound hcs (by simp)
  have hne : ∀ k, k <+: cs → base ++ k ≠ base ++ cs ++ [c] := by
    intro k hk heq
    have hlength := congrArg List.length heq
    have hle := hk.length_le
    simp only [List.length_append, List.length_singleton] at hlength
    omega
  refine ⟨?_, h.cwd, h.now, h.mask, ?_, ?_, ?_, ?_⟩
  · exact h.sound.put (alikeOff_placed d' (base ++ cs) c _) ⟨m, _, hlast⟩ (by rw [hvacant]; simp)
  · intro k hk hpre
    rcases List.prefix_concat_iff.mp hpre with rfl | hpre
    · rw [← List.append_assoc]
      exact hsound.vacant_below (h.vacant cs hcs List.prefix_rfl) [c]
    · exact h.vacant k hk hpre
  · intro k hk hpre
    rcases List.prefix_concat_iff.mp hpre with rfl | hpre
    · rw [← List.append_assoc, node?_placed, if_pos rfl, h.now]
    · rw [node?_placed, if_neg (hne k hpre), node?_touchDir, h.made k hk hpre]
      split
      · rw [← h.now]
        rfl
      · rfl
  · obtain ⟨m', t, hdir, hdir'⟩ := h.holder
    refine ⟨m', t, hdir, ?_⟩
    have hbase : base ≠ base ++ cs := by simpa using hcs
    rw [node?_placed, if_neg (by simp), node?_touchDir, if_neg hbase, hdir']
  · intro l hl
    have hmore : l ≠ base ++ cs ++ [c] := by
      rw [List.append_assoc]
      exact hl (cs ++ [c]) List.prefix_rfl
    have hcs' : l ≠ base ++ cs := hl cs (List.prefix_append cs [c])
    rw [node?_placed, if_neg hmore, node?_touchDir, if_neg hcs']
    exact h.elsewhere l fun k hk => hl k (hk.trans (List.prefix_append cs [c]))

theorem Furnished.roomier (h : Furnished d m base cs d') : Roomier ∅ d d' := by
  refine ⟨h.cwd, h.now, h.mask, fun l _ => ?_⟩
  by_cases hl : ∃ k, k <+: cs ∧ l = base ++ k
  · obtain ⟨k, hk, rfl⟩ := hl
    by_cases hnil : k = []
    · obtain ⟨m', t, hdir, hdir'⟩ := h.holder
      rw [hnil, List.append_nil]
      exact Or.inl (Or.inr ⟨trivial, m', t, _, hdir, hdir'⟩)
    · exact Or.inr ⟨h.vacant k hnil hk, m, _, h.made k hnil hk⟩
  · have helsewhere := h.elsewhere l fun k hk heq => hl ⟨k, hk, heq⟩
    exact Or.inl (Or.inl helsewhere.symm)

/-- Where a name beyond the new directories leads. -/
theorem Furnished.place (h : Furnished d m base cs d') (hsound : d.Sound) (hcs : cs ≠ [])
    {front more : List Text} (henters : Enters d front base)
    (hplain : Plain (front ++ (cs ++ more))) (follow : Bool) :
    Leads d' base (cs ++ more) (d'.place follow (Path.absolute (front ++ (cs ++ more)))) := by
  refine (henters.grown hsound h.roomier.grows).place hplain (Or.inl (by simp [hcs])) ?_
  intro k hk hne _ target hlink
  -- There are directories, and beyond them there is nothing.
  rcases List.prefix_or_prefix_of_prefix hk (List.prefix_append cs more) with hk' | ⟨k', rfl⟩
  · rw [h.made k hne hk'] at hlink
    simp at hlink
  · by_cases hnil : k' = []
    · rw [hnil, List.append_nil, h.made cs hcs List.prefix_rfl] at hlink
      simp at hlink
    · rw [h.vacant_beyond hsound hcs hnil] at hlink
      simp at hlink

/-- A name in the last of the new directories has its location there. -/
theorem Furnished.located (h : Furnished d m base cs d') (hsound : d.Sound) (hcs : cs ≠ [])
    {front : List Text} {dir : Location} (henters : Enters d front base)
    (hplain : Plain (front ++ cs ++ [c])) (hlocated : Located d' (front ++ cs) c dir) :
    dir = base ++ cs := by
  have hplain' : Plain (front ++ (cs ++ [c])) := by rwa [← List.append_assoc]
  have hleads := h.place hsound hcs henters hplain' false
  have hvacant : d'.node? (base ++ (cs ++ [c])) = none := h.vacant_beyond hsound hcs (by simp)
  rw [← List.append_assoc front, hlocated.place hplain] at hleads
  generalize hnode : d'.node? (dir ++ [c]) = x at hleads
  cases x with
  | none =>
    cases hleads with
    | free hfront _ _ _ => rw [(List.append_inj' hfront rfl).1]
  | some n =>
    have heq := hleads.found_iff rfl
    rw [← heq, hnode] at hvacant
    simp at hvacant

/-- Nothing is found beyond the new directories, neither now nor before. -/
theorem Furnished.not_found (h : Furnished d m base cs d') (hsound : d.Sound) (hcs : cs ≠ [])
    {front more : List Text} (henters : Enters d front base) (hmore : more ≠ [])
    (hplain : Plain (front ++ (cs ++ more))) (follow : Bool) (r : Location × Node) :
    d'.find follow (Path.absolute (front ++ (cs ++ more))) ≠ .ok r ∧
      d.find follow (Path.absolute (front ++ (cs ++ more))) ≠ .ok r := by
  have hnow : ∀ r, d'.find follow (Path.absolute (front ++ (cs ++ more))) ≠ .ok r := by
    rintro ⟨x, n⟩ hfind
    obtain ⟨hplace, hx⟩ := find_eq_ok.mp hfind
    have hleads := h.place hsound hcs henters hplain follow
    rw [hleads.found_iff hplace, h.vacant_beyond hsound hcs hmore] at hx
    simp at hx
  refine ⟨hnow r, fun hfind => ?_⟩
  -- What was found before would still be found.
  obtain ⟨x, n⟩ := r
  obtain ⟨n', hfind', _⟩ := find_grown hsound h.roomier.grows (Or.inl rfl) hfind
  exact hnow _ hfind'

/-- A directory has got a new directory in it. -/
def Gained (d : Disk) (l : Location) (d' : Disk) : Prop :=
  ∃ c m t, d.node? (l ++ [c]) = none ∧ d'.node? (l ++ [c]) = some (.dir m t)

theorem Furnished.node (h : Furnished d m base cs d') (hcs : cs ≠ []) (l : Location) :
    d'.node? l = d.node? l ∨ (d.node? l = none ∧ ∃ m t, d'.node? l = some (.dir m t)) ∨
    ∃ m t, d.node? l = some (.dir m t) ∧ d'.node? l = some (.dir m d.now) ∧ Gained d l d' := by
  by_cases hl : ∃ k, k <+: cs ∧ l = base ++ k
  · obtain ⟨k, hk, rfl⟩ := hl
    right
    by_cases hnil : k = []
    · obtain ⟨m', t, hdir, hdir'⟩ := h.holder
      obtain ⟨c, rest, rfl⟩ := List.exists_cons_of_ne_nil hcs
      have hfirst : [c] <+: c :: rest := List.cons_prefix_cons.mpr ⟨rfl, List.nil_prefix⟩
      rw [hnil, List.append_nil]
      refine Or.inr ⟨m', t, hdir, hdir', c, m, d.now, ?_, ?_⟩
      · exact h.vacant [c] (by simp) hfirst
      · exact h.made [c] (by simp) hfirst
    · exact Or.inl ⟨h.vacant k hnil hk, m, _, h.made k hnil hk⟩
  · exact Or.inl (h.elsewhere l fun k hk heq => hl ⟨k, hk, heq⟩)

end Furnished

/-! ### Making directories -/

section Directories

variable {d d' : Disk} {front cs : List Text} {c : Text} {mode : Nat}

theorem mkdir_absolute (hplain : Plain (front ++ [c]))
    (h : d.mkdir (Path.absolute (front ++ [c])) mode = .ok d') :
    ∃ dir, Located d front c dir ∧ d.node? (dir ++ [c]) = none ∧
      d' = d.placed dir c (.dir (d.created mode) d.now) := by
  unfold mkdir at h
  dsimp only at h
  rw [bare_absolute hplain] at h
  cases hplace : d.place false (Path.absolute (front ++ [c])) with
  | error e => simp [hplace] at h
  | ok r =>
    obtain ⟨dir, hlocated, _⟩ := located_of_place hplain hplace
    rw [hlocated.place hplain] at h
    cases hnode : d.node? (dir ++ [c]) with
    | some n => simp [hnode] at h
    | none =>
      rw [hnode] at h
      dsimp only at h
      split_ifs at h
      exact ⟨dir, hlocated, hnode, (Except.ok.inj h).symm⟩

/-- A directory is made at a free location of its own, or nothing changes. -/
theorem mkdirUnlessThere_cases (d : Disk) (mode : Nat) (hplain : Plain cs) :
    (∃ front c dir, cs = front ++ [c] ∧ Located d front c dir ∧ d.node? (dir ++ [c]) = none ∧
      d.mkdirUnlessThere (Path.absolute cs) mode =
        (d.placed dir c (.dir (d.created mode) d.now), none)) ∨
    ∃ err, d.mkdirUnlessThere (Path.absolute cs) mode = (d, err) ∧
      (err = none → ∃ x m t, d.find false (Path.absolute cs) = .ok (x, .dir m t)) := by
  unfold mkdirUnlessThere
  cases hmkdir : d.mkdir (Path.absolute cs) mode with
  | ok d' =>
    left
    cases cs using List.reverseRecOn with
    | nil =>
      have hroot : d.mkdir (Path.absolute []) mode = .error ⟨"mkdir", Path.absolute [], .exists⟩ := rfl
      rw [hroot] at hmkdir
      simp at hmkdir
    | append_singleton front c =>
      obtain ⟨dir, hlocated, hvacant, rfl⟩ := mkdir_absolute hplain hmkdir
      exact ⟨front, c, dir, rfl, hlocated, hvacant, rfl⟩
  | error e =>
    right
    dsimp only
    unfold lstat
    rcases d.find false (Path.absolute cs) with e' | ⟨x, n⟩
    · exact ⟨some e, rfl, by simp⟩
    · refine ⟨if n.isDir then none else some e, rfl, fun hnone => ?_⟩
      cases n with
      | dir m t => exact ⟨x, m, t, rfl⟩
      | file _ _ _ => simp [Node.isDir] at hnone
      | link _ => simp [Node.isDir] at hnone

/-- What making a directory and those above it comes to: nothing, or new directories from
    some directory on that was there. They go all the way exactly if there is no error, and
    then there is a directory in the end. -/
inductive Furnishes (d : Disk) (mode : Nat) (cs : List Text) : Disk × Option OsError → Prop where
  | unchanged {err : Option OsError}
      (hfound : err = none → ∃ x m t, d.find true (Path.absolute cs) = .ok (x, .dir m t)) :
      Furnishes d mode cs (d, err)
  | made {front made rest : List Text} {base : Location} {d' : Disk} {err : Option OsError}
      (hcs : cs = front ++ made ++ rest) (hmade : made ≠ []) (henters : Enters d front base)
      (hnew : Furnished d (d.created mode) base made d') (herr : err = none ↔ rest = [])
      (hfound : err = none → ∃ x m t, d'.find true (Path.absolute cs) = .ok (x, .dir m t)) :
      Furnishes d mode cs (d', err)

theorem Furnishes.sound {d' : Disk} {err : Option OsError} (h : Furnishes d mode cs (d', err))
    (hsound : d.Sound) : d'.Sound := by
  cases h with
  | unchanged _ => exact hsound
  | made _ _ _ hnew _ _ => exact hnew.sound

theorem Furnishes.roomier {d' : Disk} {err : Option OsError} (h : Furnishes d mode cs (d', err)) :
    Roomier ∅ d d' := by
  cases h with
  | unchanged _ => exact Roomier.refl d
  | made _ _ _ hnew _ _ => exact hnew.roomier

/-- Where something is in the last directory, no directory had to be made. -/
theorem Furnishes.eq_of_node {d' : Disk} {dir : Location} {n : Node}
    (h : Furnishes d mode front (d', none)) (hsound : d.Sound) (hplain : Plain (front ++ [c]))
    (hlocated : Located d' front c dir) (hn : d.node? (dir ++ [c]) = some n) : d' = d := by
  cases h with
  | unchanged _ => rfl
  | @made front' made rest base _ _ hcs hmade henters hnew herr _ =>
    obtain rfl := herr.mp rfl
    rw [List.append_nil] at hcs
    subst hcs
    obtain rfl := hnew.located hsound hmade henters hplain hlocated
    rw [hsound.vacant_below (hnew.vacant made hmade List.prefix_rfl) [c]] at hn
    simp at hn

/-- The last directory, when those above it are there. -/
theorem furnishes_last (hsound : d.Sound) (hplain : Plain cs) (mode : Nat) :
    Furnishes d mode cs (d.mkdirUnlessThere (Path.absolute cs) mode) := by
  rcases mkdirUnlessThere_cases d mode hplain with
    ⟨front, c, dir, rfl, hlocated, hvacant, hresult⟩ | ⟨err, hresult, hfound⟩
  · rw [hresult]
    refine .made (List.append_nil _).symm (by simp) hlocated.enters
      (furnished_singleton hsound hlocated.enters.dir hvacant) (by simp) fun _ => ?_
    have hold : Grown (d.node? (dir ++ [c])) (some (.dir (d.created mode) d.now)) := by
      rw [hvacant]
      exact .vacant _
    exact ⟨_, _, _, find_placed hplain hsound hlocated hold (by simp)⟩
  · rw [hresult]
    refine .unchanged fun hnone => ?_
    obtain ⟨x, m, t, hx⟩ := hfound hnone
    exact ⟨x, m, t, find_follow hx (by simp)⟩

/-- The last directory, when those above it are new. -/
theorem Furnished.furnishes_last {base : Location} {made : List Text} (hsound : d.Sound)
    (hplain : Plain (front ++ made ++ [c])) (hmade : made ≠ []) (henters : Enters d front base)
    (hnew : Furnished d (d.created mode) base made d') :
    Furnishes d mode (front ++ made ++ [c])
      (d'.mkdirUnlessThere (Path.absolute (front ++ made ++ [c])) mode) := by
  have hcreated : d'.created mode = d.created mode := by
    rw [created, created, hnew.mask]
  rcases mkdirUnlessThere_cases d' mode hplain with
    ⟨front', c', dir, heq, hlocated, hvacant, hresult⟩ | ⟨err, hresult, hfound⟩
  · obtain ⟨hfront, hc⟩ := List.append_inj' heq rfl
    obtain rfl : c = c' := by simpa using hc
    rw [← hfront] at hlocated
    obtain rfl := hnew.located hsound hmade henters hplain hlocated
    rw [hresult, hcreated]
    have hold : Grown (d'.node? (base ++ made ++ [c])) (some (.dir (d.created mode) d'.now)) := by
      rw [hvacant]
      exact .vacant _
    have hcs : front ++ made ++ [c] = front ++ (made ++ [c]) ++ [] := by simp
    refine .made hcs (by simp) henters (hnew.concat hsound hmade c) (by simp) fun _ => ?_
    exact ⟨_, _, _, find_placed hplain hnew.sound hlocated hold (by simp)⟩
  · rw [hresult]
    have herr : err ≠ none := by
      -- There is no directory yet, nor anything else.
      intro hnone
      obtain ⟨x, m, t, hx⟩ := hfound hnone
      obtain ⟨dir, hlocated, rfl, hnode⟩ := (find_absolute_concat hplain).mp hx
      obtain rfl := hnew.located hsound hmade henters hplain hlocated
      rw [List.append_assoc, hnew.vacant_beyond hsound hmade (by simp)] at hnode
      simp at hnode
    exact .made rfl hmade henters hnew (by simp [herr]) fun hnone => absurd hnone herr

/-- Making a directory and those above it. -/
theorem mkdirs_furnishes (hsound : d.Sound) (hplain : Plain cs) (mode : Nat) :
    Furnishes d mode cs (d.mkdirs (Path.absolute cs) mode) := by
  suffices hwithin : ∀ fuel cs, Plain cs →
      Furnishes d mode cs (mkdirsWithin fuel d (Path.absolute cs) mode) from hwithin _ cs hplain
  intro fuel
  induction fuel with
  | zero => exact fun cs _ => .unchanged (by simp)
  | succ fuel ih =>
    intro cs hplain
    unfold mkdirsWithin stat
    cases hfind : d.find true (Path.absolute cs) with
    | ok found =>
      obtain ⟨x, n⟩ := found
      refine .unchanged fun hnone => ?_
      cases n with
      | dir m t => exact ⟨x, m, t, hfind⟩
      | file _ _ _ => simp [Node.isDir] at hnone
      | link _ => simp [Node.isDir] at hnone
    | error e =>
      dsimp only [Except.mapError]
      rcases container?_absolute hplain with hnone | hsome
      · rw [hnone]
        exact furnishes_last hsound hplain mode
      · rw [hsome]
        have hne : cs ≠ [] := by
          rintro rfl
          have hroot : container? (Path.absolute []) = none := rfl
          rw [hroot] at hsome
          simp at hsome
        obtain ⟨above, c, rfl⟩ : ∃ above c, cs = above ++ [c] :=
          ⟨_, _, (List.dropLast_concat_getLast hne).symm⟩
        have habove := ih above (hplain.sublist (List.sublist_append_left above [c]))
        rw [List.dropLast_concat]
        dsimp only
        generalize mkdirsWithin fuel d (Path.absolute above) mode = r at habove ⊢
        cases habove with
        | @unchanged err _ =>
          cases err with
          | some e => exact .unchanged (by simp)
          | none => exact furnishes_last hsound hplain mode
        | @made front made rest base d' err hcs hmade henters hnew herr _ =>
          cases err with
          | some e =>
            have hcs' : above ++ [c] = front ++ made ++ (rest ++ [c]) := by
              rw [hcs, List.append_assoc]
            exact .made hcs' hmade henters hnew (by simp) (by simp)
          | none =>
            obtain rfl := herr.mp rfl
            obtain rfl : above = front ++ made := by simpa using hcs
            exact hnew.furnishes_last hsound hplain hmade henters

end Directories

/-! ### New files -/

/-- A name at which a file can be made: it is free, and its directory may be changed. -/
structure Vacancy (d : Disk) (front : List Text) (c : Text) (dir : Location) : Prop
    extends Located d front c dir where
  plain : Plain (front ++ [c])
  vacant : d.node? (dir ++ [c]) = none
  changeable : d.changeable dir = true

theorem createNew_absolute {d d' : Disk} {front : List Text} {c : Text} {x : Location}
    (hplain : Plain (front ++ [c]))
    (h : d.createNew (Path.absolute (front ++ [c])) = .ok (x, d')) :
    ∃ dir, Vacancy d front c dir ∧ x = dir ++ [c] ∧
      d' = d.placed dir c (.file [] 0o600 d.now) := by
  unfold createNew at h
  cases hplace : d.place false (Path.absolute (front ++ [c])) with
  | error e => simp [hplace] at h
  | ok r =>
    obtain ⟨dir, hlocated, _⟩ := located_of_place hplain hplace
    rw [hlocated.place hplain] at h
    cases hnode : d.node? (dir ++ [c]) with
    | some n => simp [hnode] at h
    | none =>
      rw [hnode] at h
      dsimp only at h
      split_ifs at h with hchange
      obtain ⟨rfl, rfl⟩ : dir ++ [c] = x ∧ _ = d' := by simpa using h
      exact ⟨dir, ⟨hlocated, hplain, hnode, hchange⟩, rfl, rfl⟩

namespace Vacancy

variable {d d' : Disk} {front : List Text} {c new : Text} {dir : Location} {a : Text} {m : Nat}
  {t : Instant}

theorem grown (h : Vacancy d front c dir) (n : Node) : Grown (d.node? (dir ++ [c])) (some n) := by
  rw [h.vacant]
  exact .vacant _

theorem find (h : Vacancy d front c dir) (hsound : d.Sound) (a : Text) (m : Nat) (t : Instant) :
    (d.placed dir c (.file a m t)).find true (Path.absolute (front ++ [c])) =
      .ok (dir ++ [c], .file a m t) :=
  find_placed h.plain hsound h.toLocated (h.grown _) (by simp)

theorem append (bytes : Text) :
    (d.placed dir c (.file a m t)).append (dir ++ [c]) bytes =
      d.placed dir c (.file (a ++ bytes) m d.now) := by
  have hnode : (d.placed dir c (.file a m t)).node? (dir ++ [c]) = some (.file a m t) := by
    rw [node?_placed, if_pos rfl]
  simp only [Disk.append, hnode]
  exact put_placed d dir c _ _

theorem chmod (h : Vacancy d front c dir) (hsound : d.Sound) (mode : Nat) :
    (d.placed dir c (.file a m t)).chmod (Path.absolute (front ++ [c])) mode =
      .ok (d.placed dir c (.file a (mode &&& 0o777) t)) := by
  unfold Disk.chmod
  rw [h.find hsound]
  exact congrArg Except.ok (put_placed d dir c _ _)

theorem setModified (h : Vacancy d front c dir) (hsound : d.Sound) (time : Instant) :
    (d.placed dir c (.file a m t)).setModified (Path.absolute (front ++ [c])) time =
      .ok (d.placed dir c (.file a m time.wrapped)) := by
  unfold Disk.setModified
  rw [h.find hsound]
  exact congrArg Except.ok (put_placed d dir c _ _)

/-- The file that was made can be removed, and that leaves no trace but the time of its
    directory. -/
theorem remove (h : Vacancy d front c dir) (hsound : d.Sound) :
    (d.placed dir c (.file a m t)).remove (Path.absolute (front ++ [c])) =
      .ok (d.touchDir dir) := by
  have hgrows := grows_placed (h.grown (.file a m t))
  have hspot := (h.toLocated.grown hsound hgrows).spot? h.plain
  have hnode : (d.placed dir c (.file a m t)).node? (dir ++ [c]) = some (.file a m t) := by
    rw [node?_placed, if_pos rfl]
  have hchange : (d.placed dir c (.file a m t)).changeable dir = true := by
    rw [← h.changeable]
    exact ((alikeOff_placed d dir c _).changeable (by simp)).symm
  have hslash : (Path.absolute (front ++ [c])).getLast? ≠ some Path.slash :=
    Path.getLast?_absolute_concat front (h.plain c (by simp))
  rw [remove_of_spot_some hspot, hnode]
  simp only [List.dropLast_concat, hchange, hslash, Node.isDir]
  exact congrArg Except.ok (drop_placed h.vacant)

/-- Moving the file to another name in its directory. A directory is not replaced. -/
theorem rename (h : Vacancy d front c dir) (hsound : d.Sound) (hne : c ≠ new)
    (hnew : Plain (front ++ [new]))
    (hd : (d.placed dir c (.file a m t)).rename (Path.absolute (front ++ [c]))
      (Path.absolute (front ++ [new])) = .ok d') :
    Located d front new dir ∧ (∀ m t, d.node? (dir ++ [new]) ≠ some (.dir m t)) ∧
      d' = d.placed dir new (.file a m t) := by
  have hgrows := grows_placed (h.grown (.file a m t))
  have henters := h.enters.grown hsound hgrows
  have hfind : (d.placed dir c (.file a m t)).find false (Path.absolute (front ++ [c])) =
      .ok (dir ++ [c], .file a m t) := by
    refine (find_absolute_concat h.plain).mpr ⟨dir, h.toLocated.grown hsound hgrows, rfl, ?_⟩
    rw [node?_placed, if_pos rfl]
  have hmoved := moved_placed (n := .file a m t) hsound hne h.enters.dir h.vacant rfl
  have hnode : (d.placed dir c (.file a m t)).node? (dir ++ [new]) = d.node? (dir ++ [new]) := by
    rw [node?_placed, if_neg (by simpa using Ne.symm hne), node?_touchDir, if_neg (by simp)]
  unfold Disk.rename at hd
  dsimp only at hd
  rw [hfind] at hd
  cases hplace : (d.placed dir c (.file a m t)).place false (Path.absolute (front ++ [new])) with
  | error e => simp [hplace] at hd
  | ok r =>
    -- Both names are looked up in the same directory.
    obtain ⟨dir', hlocated, _⟩ := located_of_place hnew hplace
    obtain rfl := hlocated.enters.unique henters
    have hlocated' : Located d front new dir' :=
      ⟨h.enters, (start_congr hgrows.cwd _).trans hlocated.start, hlocated.short⟩
    rw [hlocated.place hnew, hnode] at hd
    rcases hold : d.node? (dir' ++ [new]) with _ | (⟨a', m', t'⟩ | ⟨m', t'⟩ | target) <;>
      simp only [hold, hnode, List.dropLast_concat, Node.isDir, Bool.false_eq_true, if_false] at hd
    · split_ifs at hd
      exact ⟨hlocated', by simp, (Except.ok.inj hd).symm.trans hmoved⟩
    · split_ifs at hd
      exact ⟨hlocated', by simp, (Except.ok.inj hd).symm.trans hmoved⟩
    · simp at hd
    · split_ifs at hd
      exact ⟨hlocated', by simp, (Except.ok.inj hd).symm.trans hmoved⟩

end Vacancy

end Disk

namespace Archive

open Gauntlet.Path (Plain Ordinary)
open Disk (Enters Located Vacancy Furnishes)

/-! ### Writing by a temporary file -/

/-- The permission bits of a file that is extracted. -/
def Entry.fileMode (e : Entry) : Nat := if e.permissions = 0 then 0o644 else e.permissions

theorem Entry.fileMode_and (e : Entry) : e.fileMode &&& 0o777 = e.fileMode := by
  have hpermissions : e.permissions &&& 0o777 = e.permissions := by
    unfold Entry.permissions
    split
    · rw [Nat.and_assoc]
      rfl
    · split
      · dsimp only
        split <;> split <;> rfl
      · rfl
  unfold Entry.fileMode
  split
  · rfl
  · exact hpermissions

section Writing

variable {d d' : Disk} {l : Location} {e : Entry} {contents : Except Fault Text}

/-- A temporary file is made in the directory of its target, where its name is free. -/
theorem createTemporary_vacancy (hl : Plain l) {t : Temporary}
    (h : createTemporary d (Path.absolute l) = .ok t) :
    ∃ front name temporary dir, l = front ++ [name] ∧ temporary ≠ name ∧
      Vacancy d front temporary dir ∧
      t = (Path.absolute (front ++ [temporary]), dir ++ [temporary],
        d.placed dir temporary (.file [] 0o600 d.now)) := by
  unfold createTemporary at h
  split at h
  · simp at h
  · rename_i hslash
    cases l using List.reverseRecOn with
    | nil => exact absurd (by decide) hslash
    | append_singleton front name =>
      have hname := hl name (by simp)
      have hfront : Plain front := hl.sublist (List.sublist_append_left front [name])
      obtain ⟨k, hpath, hmade⟩ := numberedTemporary_eq_ok h
      have hplain := hfront.concat (ordinary_temporaryComponent hname k)
      rw [temporaryPath_absolute hfront hname] at hpath
      obtain ⟨path, x, d'⟩ := t
      obtain rfl : path = _ := hpath
      obtain ⟨dir, hvacancy, rfl, rfl⟩ := Disk.createNew_absolute hplain hmade
      exact ⟨front, name, _, dir, rfl, temporaryComponent_ne name k, hvacancy, rfl⟩

/-- What is left of a temporary file that is filled and moved: the target, in the same
    directory. -/
theorem fillTemporary_done (hsound : d.Sound) {front : List Text} {name temporary : Text}
    {dir : Location} (hl : Plain (front ++ [name])) (hne : temporary ≠ name)
    (hvacancy : Vacancy d front temporary dir)
    (h : fillTemporary e (Path.absolute (front ++ [name])) contents
      (Path.absolute (front ++ [temporary]), dir ++ [temporary],
        d.placed dir temporary (.file [] 0o600 d.now)) = .ok d') :
    ∃ data, contents = .ok data ∧ Located d front name dir ∧
      (∀ m t, d.node? (dir ++ [name]) ≠ some (.dir m t)) ∧
      d' = d.placed dir name (.file data e.fileMode e.modified.wrapped) := by
  unfold fillTemporary at h
  dsimp only at h
  cases contents with
  | error f => simp at h
  | ok data =>
    dsimp only at h
    rw [Vacancy.append, hvacancy.chmod hsound] at h
    dsimp only at h
    rw [hvacancy.setModified hsound] at h
    dsimp only at h
    split at h
    · simp at h
    · rename_i hrename
      obtain rfl := Except.ok.inj h
      obtain ⟨hlocated, hnodir, rfl⟩ := hvacancy.rename hsound hne hl hrename
      refine ⟨data, rfl, hlocated, hnodir, ?_⟩
      rw [List.nil_append, ← Entry.fileMode, e.fileMode_and]

/-- A target that is written is a new file in its directory, and nothing else has changed. -/
theorem writeByTemporary_done (hsound : d.Sound) (hl : Plain l)
    (h : writeByTemporary d e (Path.absolute l) contents = (d', none)) :
    ∃ front name dir data, l = front ++ [name] ∧ contents = .ok data ∧ Located d front name dir ∧
      (∀ m t, d.node? (dir ++ [name]) ≠ some (.dir m t)) ∧
      d' = d.placed dir name (.file data e.fileMode e.modified.wrapped) := by
  unfold writeByTemporary at h
  cases hcreate : createTemporary d (Path.absolute l) with
  | error f => simp [hcreate] at h
  | ok t =>
    obtain ⟨front, name, temporary, dir, rfl, hne, hvacancy, rfl⟩ :=
      createTemporary_vacancy hl hcreate
    rw [hcreate] at h
    dsimp only at h
    split at h
    · rename_i hfill
      obtain ⟨data, hdata, hlocated, hnodir, heq⟩ := fillTemporary_done hsound hl hne hvacancy hfill
      obtain ⟨rfl, _⟩ := Prod.mk.inj h
      exact ⟨front, name, dir, data, rfl, hdata, hlocated, hnodir, heq⟩
    · simp at h

/-- A target that is not written is left as it was, and so is everything else, but for the
    time of its directory if a temporary file was made there. -/
theorem writeByTemporary_failed (hsound : d.Sound) (hl : Plain l) {f : Failure}
    (h : writeByTemporary d e (Path.absolute l) contents = (d', some f)) :
    d' = d ∨ ∃ front name dir t, l = front ++ [name] ∧ Enters d front dir ∧
      createTemporary d (Path.absolute l) = .ok t ∧ t.2.1.dropLast = dir ∧
      d' = d.touchDir dir := by
  unfold writeByTemporary at h
  cases hcreate : createTemporary d (Path.absolute l) with
  | error f =>
    rw [hcreate] at h
    exact Or.inl (Prod.mk.inj h).1.symm
  | ok t =>
    obtain ⟨front, name, temporary, dir, rfl, hne, hvacancy, rfl⟩ :=
      createTemporary_vacancy hl hcreate
    rw [hcreate] at h
    dsimp only at h
    split at h
    · simp at h
    · rw [hvacancy.remove hsound] at h
      exact Or.inr ⟨front, name, dir, _, rfl, hvacancy.enters, rfl, List.dropLast_concat,
        (Prod.mk.inj h).1.symm⟩

end Writing

end Archive

end Gauntlet
