import Gauntlet.Proofs.PlainWalk
import Gauntlet.Proofs.Stages
import Gauntlet.Proofs.Ways

/-! # Where logs write

  An open log adds to its own file and to nothing else, so a stage changes the disk by what
  its command does and by what goes to that file (`perform_logged`). Logs are `Aside` if
  opening them keeps to an area as well. The logs of a store are: their area is the directory
  of the run, and what is below it (`LogStore.source_aside`).
-/

namespace Gauntlet

open Disk (AlikeBeyond AlikeOff SameLayout SameNode)

/-! ### Open logs -/

/-- A log that has gone on, if there is one, and the disk then: the log has kept its file,
    and nothing but this file has been added to. -/
structure Logged (log : Option CaseLog) (d : Disk) (log' : Option CaseLog) (d' : Disk) : Prop where
  location : log'.map CaseLog.location = log.map CaseLog.location
  beyond : AlikeBeyond {x | x ∈ log.map CaseLog.location} ∅ d d'
  layout : SameLayout d d'

namespace Logged

variable {log log' log'' : Option CaseLog} {d d' d'' : Disk}

theorem refl (log : Option CaseLog) (d : Disk) : Logged log d log d :=
  ⟨rfl, AlikeBeyond.refl d, rfl, fun _ => rfl⟩

theorem elsewhere (h : Logged log d log' d') : AlikeOff {x | x ∈ log.map CaseLog.location} d d' :=
  h.beyond.alikeOff

theorem trans (h : Logged log d log' d') (h' : Logged log' d' log'' d'') :
    Logged log d log'' d'' := by
  have hbeyond := h'.beyond
  rw [h.location] at hbeyond
  exact ⟨h'.location.trans h.location, h.beyond.trans hbeyond,
    h.layout.cwd.trans h'.layout.cwd, fun l => (h.layout.node l).trans (h'.layout.node l)⟩

/-- A log with its file in an area changes nothing beyond it, and keeps its file there. -/
theorem within (h : Logged log d log' d') {area : Set Location}
    (hlog : ∀ l ∈ log, l.location ∈ area) :
    AlikeBeyond area ∅ d d' ∧ ∀ l ∈ log', l.location ∈ area := by
  have hlocation : ∀ x ∈ log.map CaseLog.location, x ∈ area := by
    intro x hx
    obtain ⟨l, hl, rfl⟩ := Option.mem_map.mp hx
    exact hlog l hl
  refine ⟨h.beyond.mono hlocation (Set.empty_subset _), fun l' hl' => ?_⟩
  have hmem : l'.location ∈ log'.map CaseLog.location := Option.mem_map_of_mem _ hl'
  rw [h.location] at hmem
  exact hlocation _ hmem

end Logged

namespace CaseLog

variable (l : CaseLog) (d : Disk)

theorem location_withRest (ch : Channel) (t : Text) : (l.withRest ch t).location = l.location := by
  cases ch <;> rfl

theorem add_logged {l' : CaseLog} (h : l'.location = l.location) (t : Text) :
    Logged (some l) d (some l') (l.add d t) := by
  unfold add
  split
  · exact ⟨by simp [h], (AlikeBeyond.refl d).append (by simp) t, Disk.sameLayout_append d _ t⟩
  · exact ⟨by simp [h], AlikeBeyond.refl d, rfl, fun _ => rfl⟩

theorem write_logged (ch : Channel) (piece : Text) :
    Logged (some l) d (some (l.write d ch piece).1) (l.write d ch piece).2.1 := by
  unfold write
  split
  · exact ⟨by simp [location_withRest], AlikeBeyond.refl d, rfl, fun _ => rfl⟩
  · exact l.add_logged d (l.location_withRest ch _) _

theorem endLine_logged (ch : Channel) :
    Logged (some l) d (some (l.endLine d ch).1) (l.endLine d ch).2 := by
  unfold endLine
  split
  · exact Logged.refl (some l) d
  · exact l.add_logged d (l.location_withRest ch _) _

theorem endLines_logged : Logged (some l) d (some (l.endLines d).1) (l.endLines d).2 :=
  (l.endLine_logged d .out).trans (endLine_logged _ _ .err)

theorem beginSection_logged (title : Text) :
    Logged (some l) d (some (l.beginSection d title).1) (l.beginSection d title).2.1 := by
  unfold beginSection
  dsimp only
  split
  · exact (l.endLines_logged d).trans (add_logged _ _ rfl _)
  · exact l.endLines_logged d
  · exact l.endLines_logged d

theorem close_logged : Logged (some l) d (some (l.close d).1) (l.close d).2.1 := by
  unfold close
  dsimp only
  split
  · exact (l.endLines_logged d).trans ⟨rfl, AlikeBeyond.refl _, rfl, fun _ => rfl⟩
  · exact (l.endLines_logged d).trans ⟨rfl, AlikeBeyond.refl _, rfl, fun _ => rfl⟩
  · exact l.endLines_logged d

end CaseLog

/-! ### Stages -/

section Stages

variable {σ : Type}

theorem World.takeOutput_logged (w : World σ) (log : Option CaseLog)
    (pieces : List (Channel × Text)) :
    Logged log w.disk (w.takeOutput log pieces).2 (w.takeOutput log pieces).1.disk ∧
    (w.takeOutput log pieces).1.machine.cancelled = w.machine.cancelled := by
  induction pieces generalizing w log with
  | nil => exact ⟨Logged.refl log w.disk, rfl⟩
  | cons p rest ih =>
    obtain ⟨ch, piece⟩ := p
    cases log with
    | none => exact ih { w with terminal := w.terminal.write ch piece } none
    | some l =>
      obtain ⟨hrest, hcancelled⟩ := ih
        (World.withDisk { w with terminal := w.terminal.write ch piece }
          (l.write w.disk ch piece).2.1) (some (l.write w.disk ch piece).1)
      exact ⟨(l.write_logged w.disk ch piece).trans hrest, hcancelled⟩

theorem World.issue_logged (w : World σ) (tools : Toolchain σ) (log : Option CaseLog)
    (cmd : Command) :
    Logged log (tools cmd w.memory w.machine).machine.disk (w.issue tools log cmd).2.2
      (w.issue tools log cmd).2.1.disk ∧
    (w.issue tools log cmd).2.1.machine.cancelled =
      (tools cmd w.memory w.machine).machine.cancelled :=
  takeOutput_logged
    { w with
      machine := (tools cmd w.memory w.machine).machine
      memory := (tools cmd w.memory w.machine).memory
      issued := w.issued ++ [cmd] } log (tools cmd w.memory w.machine).writes

namespace Course

theorem beginSection_logged (s : Stage) (w : World σ) (log : Option CaseLog) :
    ∃ d, Logged log w.disk (beginSection s w log).2 d ∧ (beginSection s w log).1 = w.withDisk d := by
  cases log with
  | none => exact ⟨w.disk, Logged.refl none w.disk, rfl⟩
  | some l => exact ⟨_, l.beginSection_logged w.disk s.label, rfl⟩

theorem closeLog_logged (w : World σ) (log : Option CaseLog) :
    AlikeOff {x | x ∈ log.map CaseLog.location} w.disk (closeLog w log).disk ∧
    SameLayout w.disk (closeLog w log).disk ∧
    (closeLog w log).machine.cancelled = w.machine.cancelled := by
  cases log with
  | none => exact ⟨AlikeOff.refl w.disk, ⟨rfl, fun _ => rfl⟩, rfl⟩
  | some l => exact ⟨(l.close_logged w.disk).elsewhere, (l.close_logged w.disk).layout, rfl⟩

/-- What performing a stage does: something goes to the log, then the toolchain acts, and
    then something goes to the log again. -/
theorem perform_logged (c : Course) (tools : Toolchain σ) (case : Case) (s : Stage) (w : World σ)
    (log : Option CaseLog) :
    ∃ d log' captured, Logged log w.disk log' d ∧
      (c.perform tools case s w log).1 =
        performedRecord s (c.issuedCommand case captured s)
          (tools (c.issuedCommand case captured s) w.memory ⟨d, w.machine.cancelled⟩).ending ∧
      Logged log'
        (tools (c.issuedCommand case captured s) w.memory ⟨d, w.machine.cancelled⟩).machine.disk
        (c.perform tools case s w log).2.2 (c.perform tools case s w log).2.1.disk ∧
      (c.perform tools case s w log).2.1.machine.cancelled =
        (tools (c.issuedCommand case captured s) w.memory
          ⟨d, w.machine.cancelled⟩).machine.cancelled := by
  obtain ⟨d, hheading, hworld⟩ := beginSection_logged s w log
  refine ⟨d, (beginSection s w log).2, (beginSection s w log).2.isSome, hheading, ?_⟩
  have hissue := (w.withDisk d).issue_logged tools (beginSection s w log).2
    (c.issuedCommand case (beginSection s w log).2.isSome s)
  unfold perform
  dsimp only
  rw [hworld]
  exact ⟨rfl, hissue⟩

end Course

end Stages

/-! ### Logs with an area of their own -/

/-- There are no symbolic links in an area. -/
def Disk.LinkFree (area : Set Location) (d : Disk) : Prop :=
  ∀ l ∈ area, ∀ target, d.node? l ≠ some (.link target)

theorem Disk.LinkFree.of_layout {area : Set Location} {d d' : Disk} (h : d.LinkFree area)
    (hlayout : SameLayout d d') : d'.LinkFree area := by
  intro l hl target hlink
  rcases Node.outline_cases (hlayout.node l) with ⟨_, h₂⟩ | ⟨_, _, _, _, h₂⟩ | ⟨target', h₁, _⟩ |
    ⟨_, _, _, _, _, _, h₂⟩
  · simp [hlink] at h₂
  · simp [hlink] at h₂
  · exact h l hl target' h₁
  · simp [hlink] at h₂

/-- Logs that keep to an area. On every disk that differs from a given one at some spots only,
    and has no links in the area, opening a log of one of the cases changes nothing outside
    of the area, makes no links, and gives a log whose file is in the area. -/
def LogSource.Aside (logs : LogSource) (run : Text) (cases : List Case) (area spots : Set Location)
    (d₀ : Disk) : Prop :=
  ∀ case ∈ cases, ∀ d, AlikeOff spots d₀ d → d.LinkFree area →
    AlikeOff area d (logs run case d).1 ∧ (logs run case d).1.LinkFree area ∧
    ∀ l, (logs run case d).2 = .ok l → l.location ∈ area

/-! ### The logs of a store -/

namespace Disk

open Gauntlet.Path (Plain Ordinary)

/-- Opening a file for writing makes an empty one where its path leads, if there is a file or
    nothing. Nothing else changes but the time of the directory. -/
theorem openForWriting_effect {d d' : Disk} {p : Text} {mode : Nat} {x : Location}
    (h : d.openForWriting p mode = .ok (x, d')) :
    ∃ q, d.place true p = .ok q ∧ x = q.location ∧
      (∀ l, q = .found l → ∃ data m t, d.node? l = some (.file data m t)) ∧
      (∃ m, d'.node? x = some (.file [] m d'.now)) ∧ AlikeBeyond {x} {x.dropLast} d d' := by
  unfold openForWriting at h
  split at h
  · split at h <;> simp at h
  cases hp : d.place true p with
  | error e => simp [hp] at h
  | ok q =>
    rw [hp] at h
    refine ⟨q, rfl, ?_⟩
    cases q with
    | found l =>
      -- A file that is there keeps its mode.
      dsimp only at h
      split at h
      · rename_i data m t hfile
        split at h
        · obtain ⟨rfl, rfl⟩ : l = x ∧ _ = d' := by simpa using h
          refine ⟨rfl, ?_, ⟨m, ?_⟩, (AlikeBeyond.refl d).put (Set.mem_singleton l) _⟩
          · rintro l' ⟨⟩
            exact ⟨data, m, t, hfile⟩
          · rw [node?_put, if_pos rfl]
            rfl
        · simp at h
      · simp at h
    | free dir c =>
      dsimp only at h
      split at h
      · obtain ⟨rfl, rfl⟩ : dir ++ [c] = x ∧ _ = d' := by simpa using h
        refine ⟨rfl, by simp, ⟨d.created mode, ?_⟩, ?_⟩
        · exact node?_created d dir c _
        · rw [List.dropLast_concat]
          exact AlikeBeyond.created d dir c _
      · simp at h

theorem create_effect {d d' : Disk} {p : Text} {x : Location} (h : d.create p = .ok (x, d')) :
    ∃ q, d.place true p = .ok q ∧ x = q.location ∧
      (∃ m, d'.node? x = some (.file [] m d'.now)) ∧ AlikeBeyond {x} {x.dropLast} d d' := by
  have hopened : d.openForWriting p 0o666 = .ok (x, d') := by
    unfold Disk.create at h
    split at h
    · split at h
      · simp at h
      · exact h
    · exact h
  obtain ⟨q, hplace, hx, _, hfile, hbeyond⟩ := openForWriting_effect hopened
  exact ⟨q, hplace, hx, hfile, hbeyond⟩

/-- A directory that is made under a cleaned name is made where the name leads. Nothing else
    changes but the time of the directory that holds it. -/
theorem mkdir_effect {d d' : Disk} {p : Text} {mode : Nat}
    (hp : p = [Path.slash] ∨ Path.withoutTrailing p = p) (h : d.mkdir p mode = .ok d') :
    ∃ q, d.place false p = .ok q ∧ AlikeBeyond {q.location} {q.location.dropLast} d d' := by
  have hbare : (if Path.withoutTrailing p = [] then p else Path.withoutTrailing p) = p := by
    rcases hp with rfl | hp
    · rfl
    · rw [hp, ite_self]
  unfold mkdir at h
  dsimp only at h
  rw [hbare] at h
  split at h
  · simp at h
  · simp at h
  · rename_i dir name hplace
    split at h
    · obtain rfl := Except.ok.inj h
      refine ⟨_, hplace, ?_⟩
      rw [Place.location, List.dropLast_concat]
      exact AlikeBeyond.created d dir name _
    · simp at h

/-- If what holds a directory is there, at most this one directory is made. -/
theorem mkdirs_effect {d : Disk} {p : Text} (mode : Nat)
    (hheld : ∀ c, container? p = some c → ∃ r, d.stat c = .ok r) :
    (d.mkdirs p mode).1 = d ∨ d.mkdir p mode = .ok (d.mkdirs p mode).1 := by
  have hunless : (d.mkdirUnlessThere p mode).1 = d ∨
      d.mkdir p mode = .ok (d.mkdirUnlessThere p mode).1 := by
    unfold mkdirUnlessThere
    split
    · rename_i hmade
      exact Or.inr hmade
    · left
      split <;> rfl
  unfold mkdirs mkdirsWithin
  split
  · exact Or.inl rfl
  · split
    · exact hunless
    · -- The directory above is found at once.
      rename_i c hc
      obtain ⟨⟨l, n⟩, hstat⟩ := hheld c hc
      obtain ⟨k, hk⟩ : ∃ k, p.length = k + 1 := by
        cases p with
        | nil => simp [container?, Path.withoutTrailing] at hc
        | cons b t => exact ⟨t.length, rfl⟩
      have habove : mkdirsWithin p.length d c mode =
          (d, if n.isDir then none else some ⟨"mkdir", c, .notDirectory⟩) := by
        rw [hk, mkdirsWithin, hstat]
      rw [habove]
      by_cases hdir : n.isDir
      · simpa [hdir] using hunless
      · simp [hdir]

/-- A disk with directories on the way to a location, and with no links at that location or
    below it. -/
structure Tended (base : Location) (name : Text) (d : Disk) : Prop where
  way : ∀ k, k <+: base → ∃ m t, d.node? k = some (.dir m t)
  linkFree : d.LinkFree {l | base ++ [name] <+: l}

namespace Tended

variable {base l : Location} {name : Text} {d d' : Disk}

theorem unlinked (h : Tended base name d) : Unlinked (base ++ [name]) d := by
  rintro l (hl | hl) target hlink
  · rcases List.prefix_concat_iff.mp hl with rfl | hl
    · exact h.linkFree _ List.prefix_rfl target hlink
    · obtain ⟨m, t, hdir⟩ := h.way l hl
      rw [hlink] at hdir
      simp at hdir
  · exact h.linkFree l hl target hlink

/-- A node other than a link may be put at the location, or below it. -/
theorem of_put (h : Tended base name d) (ha : AlikeOff {l} d d') (hl : base ++ [name] <+: l)
    (hnode : ∀ target, d'.node? l ≠ some (.link target)) : Tended base name d' := by
  have hsame : ∀ k, k ≠ l → SameNode True (d.node? k) (d'.node? k) :=
    fun k hk => ha.node k (by simpa using hk)
  refine ⟨fun k hk => ?_, fun k hk target hlink => ?_⟩
  · have hne : k ≠ l := by
      rintro rfl
      have hlength := (hl.trans hk).length_le
      simp only [List.length_append, List.length_singleton] at hlength
      omega
    obtain ⟨m, t, hdir⟩ := h.way k hk
    rcases hsame k hne with heq | ⟨_, m', _, t', _, hdir'⟩
    · exact ⟨m, t, heq ▸ hdir⟩
    · exact ⟨m', t', hdir'⟩
  · by_cases heq : k = l
    · exact hnode target (heq ▸ hlink)
    · rcases hsame k heq with hnode' | ⟨_, _, _, _, _, hdir⟩
      · exact h.linkFree k hk target (hnode'.trans hlink)
      · rw [hlink] at hdir
        simp at hdir

theorem mkdirUnlessThere (h : Tended base name d) {k : Location} (hk : k <+: base ++ [name])
    (hplain : Plain k) (mode : Nat) :
    AlikeOff {base ++ [name]} d (d.mkdirUnlessThere (Path.absolute k) mode).1 ∧
    Tended base name (d.mkdirUnlessThere (Path.absolute k) mode).1 := by
  unfold Disk.mkdirUnlessThere
  cases hmade : d.mkdir (Path.absolute k) mode with
  | error e =>
    dsimp only
    split <;> exact ⟨AlikeOff.refl d, h⟩
  | ok d' =>
    obtain ⟨dir, c, rfl, hnone, _, rfl⟩ :=
      mkdir_plain hplain (h.unlinked.straight (Or.inl hk) false) hmade
    -- On the way all directories are there, so the last one was made.
    have heq : dir ++ [c] = base ++ [name] := by
      rcases List.prefix_concat_iff.mp hk with heq | hk
      · exact heq
      · obtain ⟨m, t, hdir⟩ := h.way _ hk
        rw [hnone] at hdir
        simp at hdir
    have ha := AlikeOff.created d dir c (.dir (d.created mode) d.now)
    dsimp only
    refine ⟨heq ▸ ha, h.of_put ha (heq ▸ List.prefix_rfl) fun target => ?_⟩
    rw [node?_created]
    simp

theorem mkdirs (h : Tended base name d) (hplain : Plain (base ++ [name])) (mode : Nat) :
    AlikeOff {base ++ [name]} d (d.mkdirs (Path.absolute (base ++ [name])) mode).1 ∧
    Tended base name (d.mkdirs (Path.absolute (base ++ [name])) mode).1 := by
  refine mkdirs_induction (P := fun e => AlikeOff {base ++ [name]} d e ∧ Tended base name e)
    hplain (fun e k hk hplain he => ?_) ⟨AlikeOff.refl d, h⟩
  obtain ⟨halike, htended⟩ := he.2.mkdirUnlessThere hk hplain mode
  exact ⟨he.1.trans halike, htended⟩

/-- A file below the location is made or cut to nothing at its own location. -/
theorem create (h : Tended base name d) {x : Location} (hplain : Plain l)
    (hl : base ++ [name] <+: l) (hmade : d.create (Path.absolute l) = .ok (x, d')) :
    x = l ∧ AlikeOff {l} d d' ∧ Tended base name d' := by
  obtain ⟨q, hq, hx, ⟨m, hfile⟩, hbeyond⟩ := create_effect hmade
  have hleads := place_plain hplain (h.unlinked.straight (Or.inr hl) true)
  rw [hq] at hleads
  have hlocation : q.location = l := by
    generalize hr : (Except.ok q : Except Errno Place) = r at hleads
    cases hleads with
    | found _ =>
      cases hr
      rfl
    | free hcs _ _ _ =>
      cases hr
      exact hcs.symm
    | nowhere e => simp at hr
  obtain rfl : x = l := hx.trans hlocation
  refine ⟨rfl, hbeyond.alikeOff, h.of_put hbeyond.alikeOff hl fun target => ?_⟩
  rw [hfile]
  simp

end Tended

end Disk

/-- The log of a case leads below a location: what holds the directory of the run is there, and
    the names of this directory and of the log both lead to places below. -/
structure LogStore.Within (s : LogStore) (run : Text) (case : Case) (top : Location) (d : Disk) :
    Prop where
  held : ∀ c, Disk.container? (s.runDir run) = some c → ∃ r, d.stat c = .ok r
  runDir : ∀ q, d.place false (s.runDir run) = .ok q → Disk.below top q.location
  log : ∀ q, (d.mkdirs (s.runDir run) 0o755).1.place true (s.logPath run case) = .ok q →
    Disk.below top q.location

instance (s : LogStore) (run : Text) (case : Case) (top : Location) (d : Disk) :
    Decidable (s.Within run case top d) :=
  decidable_of_iff
    ((∀ c ∈ Disk.container? (s.runDir run), (d.stat c).isOk = true) ∧
      (∀ q ∈ (d.place false (s.runDir run)).toOption, Disk.below top q.location = true) ∧
      ∀ q ∈ ((d.mkdirs (s.runDir run) 0o755).1.place true (s.logPath run case)).toOption,
        Disk.below top q.location = true) <| by
    constructor
    · rintro ⟨hheld, hdir, hlog⟩
      refine ⟨fun c hc => ?_, fun q hq => hdir q (toOption_eq_some_iff.mpr hq),
        fun q hq => hlog q (toOption_eq_some_iff.mpr hq)⟩
      have hok := hheld c hc
      cases hstat : d.stat c with
      | ok r => exact ⟨r, rfl⟩
      | error e => simp [hstat, Except.isOk, Except.toBool] at hok
    · intro h
      refine ⟨fun c hc => ?_, fun q hq => h.runDir q (toOption_eq_some_iff.mp hq),
        fun q hq => h.log q (toOption_eq_some_iff.mp hq)⟩
      obtain ⟨r, hr⟩ := h.held c hc
      rw [hr]
      rfl

theorem Disk.prefix_of_below {top l : Location} (h : Disk.below top l) :
    top <+: l ∧ top <+: l.dropLast := by
  simp only [Disk.below, Bool.and_eq_true, List.isPrefixOf_iff_prefix, decide_eq_true_eq] at h
  obtain ⟨hself, hlength⟩ := h
  refine ⟨hself, List.prefix_of_prefix_length_le hself (List.dropLast_prefix l) ?_⟩
  rw [List.length_dropLast]
  omega

/-- Opening such a log changes nothing beyond the location, and its file is below it. -/
theorem LogStore.Within.start {s : LogStore} {run : Text} {case : Case} {top : Location} {d : Disk}
    (h : s.Within run case top d) :
    AlikeBeyond {x | top <+: x} ∅ d (CaseLog.start d s run case).1 ∧
    ∀ l, (CaseLog.start d s run case).2 = .ok l → top <+: l.location := by
  -- Making a node below the location touches the location and what is below it only.
  have hbelow : ∀ {x : Location} {e e' : Disk}, Disk.below top x →
      AlikeBeyond {x} {x.dropLast} e e' → AlikeBeyond {x | top <+: x} ∅ e e' := by
    intro x e e' hx he
    obtain ⟨hself, hholder⟩ := Disk.prefix_of_below hx
    exact he.mono (Set.singleton_subset_iff.mpr hself)
      (Set.singleton_subset_iff.mpr (Or.inl hholder))
  have hclean : s.runDir run = [Path.slash] ∨
      Path.withoutTrailing (s.runDir run) = s.runDir run := by
    unfold LogStore.runDir Path.join
    split
    · exact Or.inr rfl
    · exact Path.withoutTrailing_clean _
  have hmade : AlikeBeyond {x | top <+: x} ∅ d (d.mkdirs (s.runDir run) 0o755).1 := by
    rcases Disk.mkdirs_effect 0o755 h.held with heq | hmkdir
    · rw [heq]
      exact AlikeBeyond.refl d
    · obtain ⟨q, hq, hbeyond⟩ := Disk.mkdir_effect hclean hmkdir
      exact hbelow (h.runDir q hq) hbeyond
  have hlog := h.log
  unfold CaseLog.start
  split
  · exact ⟨AlikeBeyond.refl d, by simp⟩
  generalize d.mkdirs (s.runDir run) 0o755 = made at hmade hlog ⊢
  obtain ⟨d₁, failed⟩ := made
  cases failed with
  | some e => exact ⟨hmade, by simp⟩
  | none =>
    dsimp only at hmade hlog ⊢
    split
    · exact ⟨hmade, by simp⟩
    · rename_i x d₂ hcreate
      obtain ⟨q, hq, rfl, _, hbeyond⟩ := Disk.create_effect hcreate
      refine ⟨hmade.trans (hbelow (hlog q hq) hbeyond), ?_⟩
      rintro l ⟨⟩
      exact (Disk.prefix_of_below (hlog q hq)).1

/-- The logs of a store keep to the directory of the run, if there are directories on the way
    to it that stay as they are. -/
theorem LogStore.source_aside {s : LogStore} {base : Location} (hbase : s.base = Path.absolute base)
    (hplain : Path.Plain base) {run : Text} (hrun : Path.slash ∉ run) {cases : List Case}
    (hnames : ∀ case ∈ cases, Path.slash ∉ case.name) {spots : Set Location} {d₀ : Disk}
    (hway : ∀ k, k <+: base → k ∉ spots ∧ ∃ m t, d₀.node? k = some (.dir m t)) :
    s.source.Aside run cases {l | base ++ ["testrun-" ++ run] <+: l} spots d₀ := by
  intro case hcase d halike hlinks
  have hordinary : Path.Ordinary ("testrun-" ++ run) := by
    have hslash : Path.slash ∉ ("testrun-" : Text) := by decide
    have hsuffix : Path.Suffix ("testrun-" ++ run) :=
      ⟨by simp [hslash, hrun], 116, List.mem_append_left run (by decide), by decide⟩
    obtain ⟨hne, hhere, hup⟩ := hsuffix.ordinary []
    exact ⟨hne, hsuffix.noSlash, hhere, hup⟩
  have hlog : Path.Ordinary (case.name ++ ".log") := by
    have hsuffix : Path.Suffix ".log" := ⟨by decide, 108, by decide, by decide⟩
    obtain ⟨hne, hhere, hup⟩ := hsuffix.ordinary case.name
    exact ⟨hne, by simp [hnames case hcase, hsuffix.noSlash], hhere, hup⟩
  have htended : Disk.Tended base ("testrun-" ++ run) d := by
    refine ⟨fun k hk => ?_, hlinks⟩
    obtain ⟨hoff, m, t, hdir⟩ := hway k hk
    rcases halike.node k hoff with heq | ⟨_, m', _, t', _, hdir'⟩
    · exact ⟨m, t, heq ▸ hdir⟩
    · exact ⟨m', t', hdir'⟩
  have hrunDir : s.runDir run = Path.absolute (base ++ ["testrun-" ++ run]) := by
    rw [LogStore.runDir, hbase, Path.join_absolute_ordinary hplain hordinary]
  have hlogPath : s.logPath run case =
      Path.absolute (base ++ ["testrun-" ++ run] ++ [case.name ++ ".log"]) := by
    rw [LogStore.logPath, hrunDir, Path.join_absolute_ordinary (hplain.concat hordinary) hlog]
  unfold LogStore.source CaseLog.start
  split
  · exact ⟨AlikeOff.refl d, hlinks, by simp⟩
  rw [hrunDir, hlogPath]
  obtain ⟨halike₁, htended₁⟩ := htended.mkdirs (hplain.concat hordinary) 0o755
  have hsub : ∀ l, base ++ ["testrun-" ++ run] <+: l →
      ({l} : Set Location) ⊆ {k | base ++ ["testrun-" ++ run] <+: k} := by
    rintro l hl k rfl
    exact hl
  generalize d.mkdirs (Path.absolute (base ++ ["testrun-" ++ run])) 0o755 = made
    at halike₁ htended₁ ⊢
  obtain ⟨d₁, failed⟩ := made
  have halike₁' := halike₁.mono (hsub _ List.prefix_rfl)
  cases failed with
  | some e => exact ⟨halike₁', htended₁.linkFree, by simp⟩
  | none =>
    dsimp only
    split
    · exact ⟨halike₁', htended₁.linkFree, by simp⟩
    · rename_i x d₂ hcreate
      have hbelow : base ++ ["testrun-" ++ run] <+:
          base ++ ["testrun-" ++ run] ++ [case.name ++ ".log"] := List.prefix_append _ _
      obtain ⟨rfl, halike₂, htended₂⟩ := htended₁.create
        ((hplain.concat hordinary).concat hlog) hbelow hcreate
      refine ⟨halike₁'.trans (halike₂.mono (hsub _ hbelow)), htended₂.linkFree, ?_⟩
      rintro l ⟨⟩
      exact hbelow

end Gauntlet
