import Gauntlet.Archive.Unpack
import Gauntlet.Proofs.Elsewhere
import Gauntlet.Proofs.PlainWalk

/-! # Archives stay in their destination

  The names in an archive can be anything. An entry is accepted if the cleaned name of its
  target is the destination or starts with it and a slash, which is a matter of text. Where
  there are no symbolic links, it is a matter of locations as well: the target is at or below
  the destination (`target_below`), and what is written goes there.

  - `Keeps`: what each operation of an unpacking does. Outside the destination nothing
    changes, but directories on the way to it may be made; inside there are still no links.
  - A temporary file is made beside its target, which for the destination itself is outside of
    it. Once it is written or given up it has left nothing behind (`writeByTemporary_cases`).
-/

namespace Gauntlet

namespace Disk

open Gauntlet.Path (Plain Ordinary)

/-! ### Trees -/

/-- Whatever is there is in a directory. -/
def Sound (d : Disk) : Prop :=
  ∀ l c n, d.node? (l ++ [c]) = some n → ∃ m t, d.node? l = some (.dir m t)

theorem sound_iff (d : Disk) : d.Sound ↔ ∀ p ∈ d.nodes.pairs,
    p.1 = [] ∨ ((d.node? p.1.dropLast).any Node.isDir) = true := by
  constructor
  · rintro h ⟨l, n⟩ hmem
    cases l using List.reverseRecOn with
    | nil => exact Or.inl rfl
    | append_singleton l c =>
      obtain ⟨m, t, hdir⟩ := h l c n ((SortedMap.mem_pairs_iff d.nodes _ n).mp hmem)
      simp [hdir, Node.isDir]
  · intro h l c n hn
    have := h (l ++ [c], n) ((SortedMap.mem_pairs_iff d.nodes _ n).mpr hn)
    rcases hl : d.node? l with _ | (⟨data, m, t⟩ | ⟨m, t⟩ | target) <;>
      simp [hl, Node.isDir] at this ⊢

instance (d : Disk) : Decidable d.Sound := decidable_of_iff _ (d.sound_iff).symm

theorem Sound.dir_of_below {d : Disk} (h : d.Sound) {x rest : Location} {n : Node}
    (hrest : rest ≠ []) (hn : d.node? (x ++ rest) = some n) :
    ∃ m t, d.node? x = some (.dir m t) := by
  induction rest using List.reverseRecOn generalizing n with
  | nil => exact absurd rfl hrest
  | append_singleton front c ih =>
    rw [← List.append_assoc] at hn
    obtain ⟨m, t, hdir⟩ := h _ _ _ hn
    by_cases hfront : front = []
    · subst hfront
      exact ⟨m, t, by simpa using hdir⟩
    · exact ih hfront hdir

theorem Sound.tree_eq_nil {d : Disk} (h : d.Sound) {x : Location}
    (hx : ∀ m t, d.node? x ≠ some (.dir m t)) : d.tree x = [] := by
  refine List.filter_eq_nil_iff.mpr ?_
  rintro ⟨l, n⟩ hmem hbelow
  simp only [below, Bool.and_eq_true, List.isPrefixOf_iff_prefix, decide_eq_true_eq] at hbelow
  obtain ⟨⟨rest, rfl⟩, hlength⟩ := hbelow
  have hrest : rest ≠ [] := by
    rintro rfl
    simp at hlength
  obtain ⟨m, t, hdir⟩ := h.dir_of_below hrest ((SortedMap.mem_pairs_iff d.nodes _ n).mp hmem)
  exact hx m t hdir

/-- Moving a node that has nothing below it. -/
theorem moved_leaf {d : Disk} {x : Location} (h : d.tree x = []) (target : Location) (n : Node) :
    d.moved x target n = (d.drop x).put target n := by
  simp [moved, h]

/-! ### Confinement -/

/-- A disk on which an archive can be unpacked at a location. -/
structure Tame (root : Location) (d : Disk) : Prop where
  sound : d.Sound
  unlinked : Unlinked root d

/-- Off a location and what is below it everything is the same, but for the change times of
    directories and for missing directories on the way that were made. -/
structure Confined (root : Location) (d d' : Disk) : Prop where
  cwd : d.cwd = d'.cwd
  now : d.now = d'.now
  mask : d.mask = d'.mask
  outside : ∀ l, ¬ root <+: l → SameNode True (d.node? l) (d'.node? l) ∨
    (d.node? l = none ∧ l <+: root ∧ ∃ m t, d'.node? l = some (.dir m t))

theorem SameNode.dir {x y : Option Node} (h : SameNode True x y) {m : Nat} {t : Instant}
    (hx : x = some (.dir m t)) : ∃ t', y = some (.dir m t') := by
  rcases h with rfl | ⟨_, m', s, s', hx', hy⟩
  · exact ⟨t, hx⟩
  · rw [hx'] at hx
    obtain ⟨rfl, _⟩ : m' = m ∧ s = t := by simpa using hx
    exact ⟨s', hy⟩

theorem SameNode.some {x y : Option Node} (h : SameNode True x y) {n : Node} (hy : y = some n) :
    ∃ n', x = some n' := by
  rcases h with rfl | ⟨_, m, s, s', hx, _⟩
  · exact ⟨n, hy⟩
  · exact ⟨_, hx⟩

theorem SameNode.link {x y : Option Node} (h : SameNode True x y) {target : Text}
    (hy : y = Option.some (.link target)) : x = Option.some (.link target) := by
  rcases h with rfl | ⟨_, m, s, s', _, hy'⟩
  · exact hy
  · rw [hy'] at hy
    simp at hy

/-- A node that is put into a directory leaves what is there in directories, unless it takes
    the place of one. -/
theorem Sound.put {d d' : Disk} (h : d.Sound) {dir : Location} {name : Text}
    (ha : AlikeOff {dir ++ [name]} d d') (hdir : ∃ m t, d.node? dir = some (.dir m t))
    (hold : ∀ m t, d.node? (dir ++ [name]) ≠ some (.dir m t)) : d'.Sound := by
  have hsame : ∀ l, l ≠ dir ++ [name] → SameNode True (d.node? l) (d'.node? l) :=
    fun l hl => ha.node l (by simpa using hl)
  have hkept : ∀ l m t, d.node? l = some (.dir m t) → ∃ m t, d'.node? l = some (.dir m t) := by
    intro l m t hl
    have hne : l ≠ dir ++ [name] := fun heq => hold m t (heq ▸ hl)
    obtain ⟨t', hl'⟩ := (hsame l hne).dir hl
    exact ⟨m, t', hl'⟩
  intro l c n hn
  by_cases heq : l ++ [c] = dir ++ [name]
  · obtain ⟨rfl, _⟩ := List.append_inj' heq rfl
    obtain ⟨m, t, hl⟩ := hdir
    exact hkept l m t hl
  · obtain ⟨n', hn'⟩ := (hsame _ heq).some hn
    obtain ⟨m, t, hl⟩ := h l c n' hn'
    exact hkept l m t hl

/-- What an operation of an unpacking comes to. -/
structure Keeps (root : Location) (d d' : Disk) : Prop where
  tame : Tame root d'
  confined : Confined root d d'

namespace Keeps

variable {root : Location} {d d' d'' : Disk}

theorem refl (h : Tame root d) : Keeps root d d := ⟨h, rfl, rfl, rfl, fun _ _ => Or.inl (Or.inl rfl)⟩

theorem trans (h : Keeps root d d') (h' : Keeps root d' d'') : Keeps root d d'' := by
  refine ⟨h'.tame, h.confined.cwd.trans h'.confined.cwd, h.confined.now.trans h'.confined.now,
    h.confined.mask.trans h'.confined.mask, fun l hl => ?_⟩
  rcases h.confined.outside l hl with hsame | ⟨hnone, hway, m, t, hdir⟩
  · rcases h'.confined.outside l hl with hsame' | ⟨hnone, hway, hdir⟩
    · exact Or.inl (hsame.trans hsame')
    · refine Or.inr ⟨?_, hway, hdir⟩
      cases hx : d.node? l with
      | none => rfl
      | some n =>
        obtain ⟨n', hn'⟩ := hsame.symm.some hx
        rw [hnone] at hn'
        simp at hn'
  · rcases h'.confined.outside l hl with hsame' | ⟨hnone', _, _⟩
    · obtain ⟨t', hdir'⟩ := hsame'.dir hdir
      exact Or.inr ⟨hnone, hway, m, t', hdir'⟩
    · rw [hdir] at hnone'
      simp at hnone'

/-- An operation that comes to nothing but other times. -/
theorem of_alikeOff (h : Tame root d) (ha : AlikeOff ∅ d d') : Keeps root d d' := by
  have hsame : ∀ l, SameNode True (d.node? l) (d'.node? l) := fun l => ha.node l (by simp)
  refine ⟨⟨?_, ?_⟩, ha.cwd, ha.now, ha.mask, fun l _ => Or.inl (hsame l)⟩
  · intro l c n hn
    obtain ⟨n', hn'⟩ := (hsame _).some hn
    obtain ⟨m, t, hdir⟩ := h.sound l c n' hn'
    obtain ⟨t', hdir'⟩ := (hsame l).dir hdir
    exact ⟨m, t', hdir'⟩
  · intro l hl target hlink
    exact h.unlinked l hl target ((hsame l).link hlink)

/-- An operation that puts a node into a directory, at or below the root, or that makes a
    missing directory on the way. -/
theorem of_put (h : Tame root d) {dir : Location} {name : Text}
    (ha : AlikeOff {dir ++ [name]} d d') {n : Node} (hn : d'.node? (dir ++ [name]) = some n)
    (hlink : ∀ target, n ≠ .link target) (hdir : ∃ m t, d.node? dir = some (.dir m t))
    (hold : ∀ m t, d.node? (dir ++ [name]) ≠ some (.dir m t))
    (hwhere : root <+: dir ++ [name] ∨
      (dir ++ [name] <+: root ∧ d.node? (dir ++ [name]) = none ∧ ∃ m t, n = .dir m t)) :
    Keeps root d d' := by
  have hsame : ∀ l, l ≠ dir ++ [name] → SameNode True (d.node? l) (d'.node? l) :=
    fun l hl => ha.node l (by simpa using hl)
  refine ⟨⟨?_, ?_⟩, ha.cwd, ha.now, ha.mask, ?_⟩
  · exact h.sound.put ha hdir hold
  · intro l hl target hl'
    by_cases heq : l = dir ++ [name]
    · rw [heq, hn] at hl'
      exact hlink target (Option.some.inj hl')
    · exact h.unlinked l hl target ((hsame l heq).link hl')
  · intro l hl
    by_cases heq : l = dir ++ [name]
    · subst heq
      rcases hwhere with hbelow | ⟨hway, hnone, m, t, rfl⟩
      · exact absurd hbelow hl
      · exact Or.inr ⟨hnone, hway, m, t, hn⟩
    · exact Or.inl (hsame l heq)

end Keeps

/-! ### Making directories -/

section Directories

variable {root l : Location} {d d' : Disk}

theorem mkdir_keeps (h : Tame root d) (hl : Plain l) (hway : l <+: root ∨ root <+: l) {mode : Nat}
    (hmade : d.mkdir (Path.absolute l) mode = .ok d') : Keeps root d d' := by
  obtain ⟨dir, name, rfl, hnone, hdir, rfl⟩ :=
    mkdir_plain hl (h.unlinked.straight hway false) hmade
  refine Keeps.of_put h (AlikeOff.created d dir name _) (node?_created d dir name _) (by simp) hdir
    (by simp [hnone]) ?_
  exact hway.symm.imp_right fun hway => ⟨hway, hnone, _, _, rfl⟩

theorem mkdirUnlessThere_keeps (h : Tame root d) (hl : Plain l) (hway : l <+: root ∨ root <+: l)
    (mode : Nat) : Keeps root d (d.mkdirUnlessThere (Path.absolute l) mode).1 := by
  unfold mkdirUnlessThere
  cases hmade : d.mkdir (Path.absolute l) mode with
  | ok d' => exact mkdir_keeps h hl hway hmade
  | error e =>
    dsimp only
    split <;> exact Keeps.refl h

/-- Directories are made one below the other, each of them on the way or below. -/
theorem mkdirs_keeps (h : Tame root d) (hl : Plain l) (hway : l <+: root ∨ root <+: l)
    (mode : Nat) : Keeps root d (d.mkdirs (Path.absolute l) mode).1 :=
  mkdirs_induction hl (fun _ _ hk hplain hkeeps => hkeeps.trans
    (mkdirUnlessThere_keeps hkeeps.tame hplain (onWay_of_above hway hk) mode)) (Keeps.refl h)

end Directories

/-! ### Temporary files -/

section Files

variable {d d' d'' : Disk} {dir : Location} {name : Text}

theorem Made.alikeOff (h : Made d dir name d') : AlikeOff {dir ++ [name]} d d' := by
  rw [h.after]
  exact AlikeOff.created d dir name _

theorem Made.node (h : Made d dir name d') :
    d'.node? (dir ++ [name]) = some (.file [] 0o600 d.now) := by
  rw [h.after, node?_created]

theorem ne_concat_of_above {k : Location} (hk : k <+: dir) : k ≠ dir ++ [name] := by
  rintro rfl
  have := hk.length_le
  rw [List.length_append, List.length_singleton] at this
  omega

/-- A file that was made can be removed, and that leaves nothing behind. -/
theorem Made.remove (h : Made d dir name d') (hl : Plain (dir ++ [name])) :
    ∃ d'', d'.remove (Path.absolute (dir ++ [name])) = .ok d'' ∧ AlikeOff ∅ d d'' := by
  have hname := hl name (by simp)
  have hdir : Plain dir := hl.sublist (List.sublist_append_left dir [name])
  have hfooting : ∀ k, k <+: dir → d'.footing ([] ++ k) = .ok true := by
    intro k hk
    rw [List.nil_append, ← h.alikeOff.footing (by simpa using ne_concat_of_above hk)]
    exact h.footing k hk
  have hwalk : d'.walk true linkLimit [] (dir ++ [Path.here]) = .ok (.found dir) :=
    walkWith_down _ hdir hfooting fun c hc => h.short c (List.mem_append_left _ hc)
  have hstart : d'.start (Path.absolute (dir ++ [name])) = .ok [] := by
    rw [← start_congr h.alikeOff.cwd]
    exact h.start
  have hholder : d'.holder (Path.absolute (dir ++ [name])) = .ok (dir, some name) := by
    unfold holder
    rw [Path.filter_pieces_absolute hl, hstart]
    simp [hwalk]
  have hremovable : irremovable? (some name) = none := by
    have hshort := h.short name (by simp)
    simp [irremovable?, hname.ne_here, hname.ne_up, hshort]
  have hchange : d'.changeable dir = true := by
    rw [← h.alikeOff.changeable (by simp)]
    exact h.changeable
  refine ⟨(d'.drop (dir ++ [name])).touchDir dir, ?_, ?_⟩
  · unfold Disk.remove
    simp [hholder, hremovable, h.node, hchange, Node.isDir, Path.getLast?_absolute_concat dir hname]
  · have hoff : AlikeOff {dir ++ [name]} d ((d'.drop (dir ++ [name])).touchDir dir) :=
      (h.alikeOff.drop (Set.mem_singleton _)).touchDir dir
    refine (hoff.without (x := dir ++ [name]) (Or.inl ?_)).mono (by simp)
    rw [h.vacant, node?_touchDir, if_neg (by simp), node?_drop, if_pos rfl]

/-- A disk that has got a file at a location, and nothing else. -/
structure Gains (d : Disk) (x : Location) (d' : Disk) : Prop where
  alike : AlikeOff {x} d d'
  file : ∃ data m t, d'.node? x = some (.file data m t)

namespace Gains

variable {x : Location}

theorem put (h : Gains d x d') (data : Text) (m : Nat) (t : Instant) :
    Gains d x (d'.put x (.file data m t)) :=
  ⟨h.alike.put (Set.mem_singleton x) _, data, m, t, by rw [node?_put, if_pos rfl]⟩

theorem append (h : Gains d x d') (bytes : Text) : Gains d x (d'.append x bytes) := by
  obtain ⟨data, m, t, hx⟩ := h.file
  simp only [Disk.append, hx]
  exact h.put _ m _

/-- The name of the file still leads to it. -/
theorem straight (h : Gains d x d') (hway : d.Straight false x) : d'.Straight true x := by
  intro k hk _ target hlink
  by_cases heq : k = x
  · obtain ⟨data, m, t, hx⟩ := h.file
    rw [heq, hx] at hlink
    simp at hlink
  · exact hway k hk (Or.inl heq) target ((h.alike.node k (by simpa using heq)).link hlink)

theorem chmod (h : Gains d x d') (hx : Plain x) (hway : d.Straight false x) {mode : Nat}
    (hd : d'.chmod (Path.absolute x) mode = .ok d'') : Gains d x d'' := by
  unfold Disk.chmod at hd
  split at hd
  · simp at hd
  · rename_i y n hfind
    obtain ⟨rfl, hn⟩ := find_plain hx (h.straight hway) hfind
    obtain ⟨data, m, t, hfile⟩ := h.file
    obtain rfl : n = .file data m t := Option.some.inj (hn.symm.trans hfile)
    obtain rfl := Except.ok.inj hd
    exact h.put data _ t

theorem setModified (h : Gains d x d') (hx : Plain x) (hway : d.Straight false x) {time : Instant}
    (hd : d'.setModified (Path.absolute x) time = .ok d'') : Gains d x d'' := by
  unfold Disk.setModified at hd
  split at hd
  · simp at hd
  · rename_i y n hfind
    obtain ⟨rfl, hn⟩ := find_plain hx (h.straight hway) hfind
    obtain ⟨data, m, t, hfile⟩ := h.file
    obtain rfl : n = .file data m t := Option.some.inj (hn.symm.trans hfile)
    obtain rfl := Except.ok.inj hd
    exact h.put data m _

end Gains

/-- A renaming that succeeds moves what is at one location to another, which was not a
    directory. -/
theorem rename_plain {x y : Location} (hx : Plain x) (hy : Plain y) (hwayx : d.Straight false x)
    (hwayy : d.Straight false y) (h : d.rename (Path.absolute x) (Path.absolute y) = .ok d') :
    ∃ n, d.node? x = some n ∧ (∀ m t, d.node? y ≠ some (.dir m t)) ∧
      d' = ((d.moved x y n).touchDir x.dropLast).touchDir y.dropLast := by
  have hleads := place_plain hy hwayy
  unfold rename at h
  dsimp only at h
  cases hfind : d.find false (Path.absolute x) with
  | error e => simp [hfind] at h
  | ok found =>
    obtain ⟨x', n⟩ := found
    obtain ⟨rfl, hn⟩ := find_plain hx hwayx hfind
    cases hp : d.place false (Path.absolute y) with
    | error e => simp [hfind, hp] at h
    | ok place =>
      rw [hp] at hleads
      rw [hfind, hp] at h
      refine ⟨n, hn, ?_⟩
      cases hleads with
      | found hend =>
        simp only [List.nil_append] at h
        split at h
        · simp at h
        · rename_i hnodir
          refine ⟨fun m t => hnodir m t, ?_⟩
          split_ifs at h
          exact (Except.ok.inj h).symm
      | @free dir name hcs hend _ _ =>
        subst hcs
        simp only [List.nil_append] at h hend
        refine ⟨by simp [hend], ?_⟩
        split_ifs at h
        exact (Except.ok.inj h).symm

/-- A new file that is moved to another name in its directory is gained there instead. -/
theorem Gains.rename (hsound : d.Sound) {old new : Text} (hne : old ≠ new)
    (hold : Plain (dir ++ [old])) (hnew : Plain (dir ++ [new])) (hway : d.Straight true dir)
    (hvacant : d.node? (dir ++ [old]) = none) (hdir : ∃ m t, d.node? dir = some (.dir m t))
    (h : Gains d (dir ++ [old]) d')
    (hd : d'.rename (Path.absolute (dir ++ [old])) (Path.absolute (dir ++ [new])) = .ok d'') :
    Gains d (dir ++ [new]) d'' ∧ ∀ m t, d.node? (dir ++ [new]) ≠ some (.dir m t) := by
  have hway' : ∀ c, d'.Straight false (dir ++ [c]) := by
    intro c k hk hend target hlink
    have hk' : k <+: dir := (List.prefix_concat_iff.mp hk).resolve_left (by simpa using hend)
    have hsame := h.alike.node k (by simpa using ne_concat_of_above hk')
    exact hway k hk' (Or.inr rfl) target (hsame.link hlink)
  obtain ⟨n, hn, hnodir, rfl⟩ := rename_plain hold hnew (hway' old) (hway' new) hd
  obtain ⟨data, m, t, hfile⟩ := h.file
  obtain rfl : n = .file data m t := Option.some.inj (hn.symm.trans hfile)
  have hleaf : d'.tree (dir ++ [old]) = [] :=
    (hsound.put h.alike hdir (by simp [hvacant])).tree_eq_nil (by simp [hfile])
  have hdiff : dir ++ [new] ≠ dir ++ [old] := by simpa using Ne.symm hne
  rw [moved_leaf hleaf]
  refine ⟨⟨?_, data, m, t, ?_⟩, fun m' t' hdirectory => ?_⟩
  · -- Both names are changed, but the old one is as free as it was before.
    have hboth : AlikeOff {dir ++ [old], dir ++ [new]} d
        ((((d'.drop (dir ++ [old])).put (dir ++ [new]) (.file data m t)).touchDir
          (dir ++ [old]).dropLast).touchDir (dir ++ [new]).dropLast) :=
      ((((h.alike.mono (by simp)).drop (by simp)).put (by simp) _).touchDir _).touchDir _
    refine (hboth.without (x := dir ++ [old]) (Or.inl ?_)).mono ?_
    · simp [hvacant, node?_touchDir, node?_put, node?_drop, hdiff.symm]
    · rintro l ⟨hl | hl, hne⟩
      · exact absurd hl hne
      · exact hl
  · simp [node?_touchDir, node?_put]
  · obtain ⟨t'', hthere⟩ := (h.alike.node _ (by simpa using hdiff)).dir hdirectory
    exact hnodir m' t'' hthere

end Files

end Disk

namespace Archive

open Gauntlet.Path (Plain Ordinary)
open Disk (AlikeOff Sound Tame Keeps)

/-! ### The names of temporary files -/

/-- The name of a temporary file beside a component. -/
def temporaryComponent (c : Text) (number : Nat) : Text :=
  "." ++ c ++ ".tmp-" ++ Numeral.ofNat number

theorem slash_not_mem_ofNat (n : Nat) : Path.slash ∉ Numeral.ofNat n := by
  intro hmem
  obtain ⟨c, hc, hbyte⟩ := List.mem_map.mp hmem
  have hdigit := Nat.isDigit_of_mem_toDigits (by omega) (by omega) hc
  simp only [Char.isDigit, Bool.and_eq_true, decide_eq_true_eq, UInt32.le_iff_toNat_le] at hdigit
  have hrange : 48 ≤ c.toNat ∧ c.toNat ≤ 57 := hdigit
  have hvalue := congrArg UInt8.toNat hbyte
  simp [Text.byte, Path.slash] at hvalue
  omega

theorem length_temporaryComponent (c : Text) (number : Nat) :
    c.length + 6 ≤ (temporaryComponent c number).length := by
  have hlead : ("." : Text).length = 1 := by decide
  have hmiddle : (".tmp-" : Text).length = 5 := by decide
  simp only [temporaryComponent, List.length_append, hlead, hmiddle]
  omega

theorem ordinary_temporaryComponent {c : Text} (hc : Ordinary c) (number : Nat) :
    Ordinary (temporaryComponent c number) := by
  have hlength := length_temporaryComponent c number
  refine ⟨?_, ?_, ?_, ?_⟩
  · intro h
    simp [h] at hlength
  · have hlead : Path.slash ∉ ("." : Text) := by decide
    have hmiddle : Path.slash ∉ (".tmp-" : Text) := by decide
    simp only [temporaryComponent, List.mem_append, not_or]
    exact ⟨⟨⟨hlead, hc.noSlash⟩, hmiddle⟩, slash_not_mem_ofNat number⟩
  · intro h
    simp [h, Path.here] at hlength
  · intro h
    simp [h, Path.up] at hlength

theorem temporaryComponent_ne (c : Text) (number : Nat) : temporaryComponent c number ≠ c := by
  intro h
  have hlength := length_temporaryComponent c number
  rw [h] at hlength
  omega

theorem temporaryPath_absolute {dir : Location} {c : Text} (hdir : Plain dir) (hc : Ordinary c)
    (number : Nat) : temporaryPath (Path.absolute (dir ++ [c])) number =
      Path.absolute (dir ++ [temporaryComponent c number]) := by
  rw [temporaryPath, Path.parent_absolute (hdir.concat hc), List.dropLast_concat, temporaryLead,
    Path.base_absolute_concat dir hc]
  exact Path.join_absolute_ordinary hdir (ordinary_temporaryComponent hc number)

/-- A temporary file that is made is new, and has a number at the end of its name. -/
theorem numberedTemporary_eq_ok {d : Disk} {target : Text} {left attempt : Nat} {t : Temporary}
    (h : numberedTemporary d target left attempt = .ok t) :
    ∃ k, t.1 = temporaryPath target k ∧ d.createNew t.1 = .ok t.2 := by
  induction left generalizing attempt with
  | zero => simp [numberedTemporary] at h
  | succ left ih =>
    rw [numberedTemporary] at h
    split at h
    · rename_i l d' hmade
      obtain rfl := Except.ok.inj h
      exact ⟨d.draws target attempt, rfl, hmade⟩
    · split at h
      · exact ih h
      · simp at h

/-- Beside a target there is a temporary file at a location of its own, in the same
    directory. -/
theorem createTemporary_eq_ok {d : Disk} {l : Location} (hl : Plain l)
    (hway : d.Straight false l) {t : Temporary}
    (h : createTemporary d (Path.absolute l) = .ok t) :
    ∃ dir name temporary, l = dir ++ [name] ∧ temporary ≠ name ∧ Ordinary temporary ∧
      t.1 = Path.absolute (dir ++ [temporary]) ∧ t.2.1 = dir ++ [temporary] ∧
      Disk.Made d dir temporary t.2.2 := by
  unfold createTemporary at h
  split at h
  · simp at h
  · rename_i hslash
    cases l using List.reverseRecOn with
    | nil => exact absurd (by decide) hslash
    | append_singleton dir name =>
      have hname := hl name (by simp)
      have hdir : Plain dir := hl.sublist (List.sublist_append_left dir [name])
      obtain ⟨k, hpath, hmade⟩ := numberedTemporary_eq_ok h
      have htemporary := ordinary_temporaryComponent hname k
      rw [temporaryPath_absolute hdir hname] at hpath
      rw [hpath] at hmade
      have hstraight : d.Straight true dir := fun k hk _ =>
        hway k (hk.trans (List.prefix_append dir [name])) (Or.inl (Disk.ne_concat_of_above hk))
      obtain ⟨hx, hd'⟩ := Disk.createNew_plain (hdir.concat htemporary) hstraight hmade
      exact ⟨dir, name, _, rfl, temporaryComponent_ne name k, htemporary, hpath, hx, hd'⟩

/-! ### Extracting -/

/-- A temporary file that is filled takes the place of its target, which was no directory. -/
theorem fillTemporary_eq_ok {d d₁ d' : Disk} (hsound : d.Sound) {dir : Location}
    {name temporary : Text} (hl : Plain (dir ++ [name])) (hx : Plain (dir ++ [temporary]))
    (hne : temporary ≠ name) (hway : d.Straight false (dir ++ [name]))
    (hmade : Disk.Made d dir temporary d₁) {e : Entry} {contents : Except Fault Text}
    (h : fillTemporary e (Path.absolute (dir ++ [name])) contents
      (Path.absolute (dir ++ [temporary]), dir ++ [temporary], d₁) = .ok d') :
    Disk.Gains d (dir ++ [name]) d' ∧ ∀ m t, d.node? (dir ++ [name]) ≠ some (.dir m t) := by
  have hgains : Disk.Gains d (dir ++ [temporary]) d₁ :=
    ⟨hmade.alikeOff, _, _, _, hmade.node⟩
  have hdir := Disk.dir_of_footing (hmade.footing dir (List.prefix_refl dir))
  have hstraight : d.Straight true dir := fun k hk _ =>
    hway k (hk.trans (List.prefix_append dir [name])) (Or.inl (Disk.ne_concat_of_above hk))
  have hwayx : d.Straight false (dir ++ [temporary]) := by
    intro k hk hend
    have hk' : k <+: dir := (List.prefix_concat_iff.mp hk).resolve_left (by simpa using hend)
    exact hstraight k hk' (Or.inr rfl)
  unfold fillTemporary at h
  dsimp only at h
  split at h
  · simp at h
  · rename_i data
    split at h
    · simp at h
    · rename_i hchmod
      split at h
      · simp at h
      · rename_i htime
        split at h
        · simp at h
        · rename_i hrename
          obtain rfl := Except.ok.inj h
          exact (((hgains.append data).chmod hx hwayx hchmod).setModified hx hwayx htime).rename
            hsound hne hx hl hstraight hmade.vacant hdir hrename

/-- What becomes of a target: it is as before, or it was no directory and is now a file. -/
theorem writeByTemporary_cases {d : Disk} (hsound : d.Sound) {l : Location} (hl : Plain l)
    (hway : d.Straight false l) (e : Entry) (contents : Except Fault Text) :
    AlikeOff ∅ d (writeByTemporary d e (Path.absolute l) contents).1 ∨
    ∃ dir name, l = dir ++ [name] ∧ (∃ m t, d.node? dir = some (.dir m t)) ∧
      (∀ m t, d.node? l ≠ some (.dir m t)) ∧
      Disk.Gains d l (writeByTemporary d e (Path.absolute l) contents).1 := by
  unfold writeByTemporary
  cases hcreate : createTemporary d (Path.absolute l) with
  | error f => exact Or.inl (AlikeOff.refl d)
  | ok t =>
    obtain ⟨dir, name, temporary, rfl, hne, htemporary, hpath, hx, hmade⟩ :=
      createTemporary_eq_ok hl hway hcreate
    obtain ⟨path, x, d₁⟩ := t
    obtain rfl : path = Path.absolute (dir ++ [temporary]) := hpath
    obtain rfl : x = dir ++ [temporary] := hx
    have hdir : Plain dir := hl.sublist (List.sublist_append_left dir [name])
    have hplain : Plain (dir ++ [temporary]) := hdir.concat htemporary
    dsimp only
    split
    · rename_i d' hfill
      obtain ⟨hgains, hnodir⟩ := fillTemporary_eq_ok hsound hl hplain hne hway hmade hfill
      exact Or.inr ⟨dir, name, rfl,
        Disk.dir_of_footing (hmade.footing dir (List.prefix_refl dir)), hnodir, hgains⟩
    · -- The temporary file can be removed, since it could be made.
      obtain ⟨d'', hremove, halike⟩ := hmade.remove hplain
      rw [hremove]
      exact Or.inl halike

/-! ### Unpacking -/

section Unpacking

variable {root : Location} {d : Disk}

/-- An accepted entry goes to the destination or below it. -/
theorem target_below (hroot : Plain root) {name t : Text}
    (h : target (Path.absolute root) name = .ok t) :
    ∃ l, Plain l ∧ t = Path.absolute l ∧ root <+: l := by
  obtain ⟨l, hl, hjoin⟩ := Path.join_absolute root name
  unfold target at h
  rw [hjoin] at h
  dsimp only at h
  split at h
  · simp at h
  · rename_i haccepted
    obtain rfl := Except.ok.inj h
    refine ⟨l, hl, rfl, ?_⟩
    by_cases heq : Path.absolute l = Path.absolute root
    · have hsame : root = l := Path.absolute_inj hroot hl heq.symm
      exact hsame ▸ List.prefix_refl root
    · have hstart : (Path.absolute l).startsWith (Path.absolute root ++ [Path.slash]) = true := by
        simpa [heq] using haccepted
      exact Path.prefix_of_startsWith hroot hl hstart

theorem extract_keeps (h : Tame root d) {l : Location} (hl : Plain l) (hbelow : root <+: l)
    (archive image : Text) (e : Entry) :
    Keeps root d (extract archive image d e (Path.absolute l)).1 := by
  have hmkdirs := Disk.mkdirs_keeps h hl.dropLast
    (Disk.onWay_of_above (Or.inr hbelow) (List.dropLast_prefix l)) 0o755
  unfold extract
  rw [Path.parent_absolute hl]
  split
  · rename_i hmade
    rw [hmade] at hmkdirs
    exact hmkdirs
  · rename_i d' hmade
    rw [hmade] at hmkdirs
    split
    · exact hmkdirs
    · rename_i contents _
      have hway := hmkdirs.tame.unlinked.straight (Or.inr hbelow) false
      refine hmkdirs.trans ?_
      rcases writeByTemporary_cases hmkdirs.tame.sound hl hway e contents with
        hsame | ⟨dir, name, rfl, hdir, hnodir, hgains⟩
      · exact Keeps.of_alikeOff hmkdirs.tame hsame
      · obtain ⟨data, m, t, hfile⟩ := hgains.file
        exact Keeps.of_put hmkdirs.tame hgains.alike hfile (by simp) hdir hnodir (Or.inl hbelow)

theorem unpackEntry_keeps (h : Tame root d) (hroot : Plain root) (archive image : Text)
    (e : Entry) :
    Keeps root d (unpackEntry archive image (Path.absolute root) d e).1 := by
  unfold unpackEntry
  split
  · exact Keeps.refl h
  · rename_i t htarget
    obtain ⟨l, hl, rfl, hbelow⟩ := target_below hroot htarget
    split
    · exact Disk.mkdirs_keeps h hl (Or.inr hbelow) _
    · exact Keeps.refl h
    · split
      · exact Keeps.refl h
      · have hextract := extract_keeps h hl hbelow archive image e
        split <;> rename_i heq <;> rw [heq] at hextract <;> exact hextract

theorem unpackEntries_keeps (h : Tame root d) (hroot : Plain root) (archive image : Text)
    (written : Nat) (es : List Entry) :
    Keeps root d (unpackEntries archive image (Path.absolute root) d written es).1 := by
  induction es generalizing d written with
  | nil => exact Keeps.refl h
  | cons e es ih =>
    have hentry := unpackEntry_keeps h hroot archive image e
    rw [unpackEntries]
    split
    · rename_i heq
      rw [heq] at hentry
      exact hentry
    · rename_i heq
      rw [heq] at hentry
      exact hentry.trans (ih hentry.tame _)

end Unpacking

theorem absolute_eq_ok {d : Disk} {p root : Text} (h : d.absolute p = .ok root) :
    Plain (Path.components root) ∧ root = Path.absolute (Path.components root) := by
  obtain ⟨l, hl, rfl⟩ : ∃ l, Plain l ∧ root = Path.absolute l := by
    unfold Disk.absolute at h
    split at h
    · rename_i habs
      obtain rfl := Except.ok.inj h
      exact ⟨_, Path.plain_components habs, Path.clean_eq_absolute habs⟩
    · split at h
      · rename_i wd hwd
        obtain rfl := Except.ok.inj h
        obtain ⟨l, rfl⟩ : ∃ l, wd = Path.absolute l := by
          unfold Disk.workingDir at hwd
          split at hwd
          · exact ⟨_, (Except.ok.inj hwd).symm⟩
          · simp at hwd
        exact Path.join_absolute l p
      · simp at h
  rw [Path.components_absolute hl]
  exact ⟨hl, rfl⟩

/-- Unpacking stays in its destination, whether it succeeds or fails. If there is no symbolic
    link on the way to the destination nor below it, then everything outside of it is as
    before, but for missing directories on the way that were made, and there is still no link
    below it. -/
theorem unpack_confined (d : Disk) (archive dest : Text) (hsound : d.Sound) :
    (∀ f, d.absolute dest = .error f → (unpack d archive dest).1 = d) ∧
    ∀ root, d.absolute dest = .ok root → Disk.Unlinked (Path.components root) d →
      Disk.Confined (Path.components root) d (unpack d archive dest).1 ∧
      Disk.Unlinked (Path.components root) (unpack d archive dest).1 ∧
      (unpack d archive dest).1.Sound := by
  constructor
  · intro f hf
    unfold unpack
    dsimp only
    split
    · rfl
    · split
      · rfl
      · rw [hf]
  · intro root hroot hlinks
    have htame : Tame (Path.components root) d := ⟨hsound, hlinks⟩
    have hkeeps : Keeps (Path.components root) d (unpack d archive dest).1 := by
      obtain ⟨hplain, heq⟩ := absolute_eq_ok hroot
      unfold unpack
      dsimp only
      split
      · exact Keeps.refl htame
      · split
        · exact Keeps.refl htame
        · rw [hroot]
          dsimp only
          rw [heq, Path.components_absolute hplain]
          exact unpackEntries_keeps htame hplain archive _ 0 _
    exact ⟨hkeeps.confined, hkeeps.tame.unlinked, hkeeps.tame.sound⟩

/-! ### A sample -/

namespace Sample

/-- An archive with a file `a` that holds one byte, and a file `../b`. -/
def image : Text :=
  [80, 75, 3, 4, 20, 0, 0, 0, 0, 0, 0, 0, 33, 40, 0, 0, 0, 0, 1, 0, 0, 0, 1, 0, 0, 0, 1, 0, 0, 0,
    97, 120, 80, 75, 3, 4, 20, 0, 0, 0, 0, 0, 0, 0, 33, 40, 0, 0, 0, 0, 0, 0, 0, 0, 0, 0, 0, 0,
    4, 0, 0, 0, 46, 46, 47, 98, 80, 75, 1, 2, 20, 3, 20, 0, 0, 0, 0, 0, 0, 0, 33, 40, 0, 0, 0, 0,
    1, 0, 0, 0, 1, 0, 0, 0, 1, 0, 0, 0, 0, 0, 0, 0, 0, 0, 0, 0, 164, 129, 0, 0, 0, 0, 97, 80, 75,
    1, 2, 20, 3, 20, 0, 0, 0, 0, 0, 0, 0, 33, 40, 0, 0, 0, 0, 0, 0, 0, 0, 0, 0, 0, 0, 4, 0, 0, 0,
    0, 0, 0, 0, 0, 0, 0, 0, 164, 129, 32, 0, 0, 0, 46, 46, 47, 98, 80, 75, 5, 6, 0, 0, 0, 0, 2,
    0, 2, 0, 97, 0, 0, 0, 66, 0, 0, 0, 0, 0]

/-- The archive `/z`, and a directory `/u` to unpack it in. -/
def disk : Disk where
  nodes := ((SortedMap.empty.insert [] (.dir 0o755 ⟨0, 0⟩)).insert [("u" : Text)]
    (.dir 0o755 ⟨0, 0⟩)).insert [("z" : Text)] (.file image 0o644 ⟨0, 0⟩)
  cwd := none
  now := ⟨1, 0⟩

theorem unpack_confined_below :
    disk.Sound ∧ disk.absolute "/u/v" = .ok "/u/v" ∧
    Disk.Unlinked [("u" : Text), ("v" : Text)] disk ∧
    (unpack disk "/z" "/u/v").2.1 = 1 ∧ (unpack disk "/z" "/u/v").2.2.isSome = true ∧
    Disk.Confined [("u" : Text), ("v" : Text)] disk (unpack disk "/z" "/u/v").1 ∧
    Disk.Unlinked [("u" : Text), ("v" : Text)] (unpack disk "/z" "/u/v").1 := by
  have hsound : disk.Sound := by decide +kernel
  have habsolute : disk.absolute "/u/v" = .ok "/u/v" := by rfl
  have hcomponents : Path.components "/u/v" = [("u" : Text), ("v" : Text)] := by decide +kernel
  have hlinks : Disk.Unlinked [("u" : Text), ("v" : Text)] disk := by decide +kernel
  obtain ⟨hconfined, hunlinked, _⟩ :=
    (unpack_confined disk "/z" "/u/v" hsound).2 "/u/v" habsolute (hcomponents ▸ hlinks)
  rw [hcomponents] at hconfined hunlinked
  exact ⟨hsound, habsolute, hlinks, by decide +kernel, by decide +kernel, hconfined, hunlinked⟩

end Sample

end Archive

end Gauntlet
