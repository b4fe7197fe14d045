import Gauntlet.Course
import Gauntlet.Proofs.Disk

/-! # Disks that differ in the times of directories

  Removing a file leaves a trace: the directory that held it has changed. `Alike` relates
  disks that differ in the change times of some directories and in nothing else. What does
  not look at these times is called heedless. It does the same on alike disks, and leaves
  them alike.

  - Making directories, and creating and writing files, is heedless, and so are the logs
    of a store (`LogStore.source_heedless`).
  - With heedless tools and logs a case comes to the same result on alike disks
    (`runStages_alike` and the lemmas around it).
-/

namespace Gauntlet

namespace Disk

/-! ### Alike disks -/

/-- Equal nodes, or directories that differ in their change times if `free` allows it. -/
def SameNode (free : Prop) (x y : Option Node) : Prop :=
  x = y ∨ free ∧ ∃ m t t', x = some (.dir m t) ∧ y = some (.dir m t')

/-- Disks that differ in the change times of some directories only. -/
structure Alike (times : List Location) (d d' : Disk) : Prop where
  cwd : d.cwd = d'.cwd
  now : d.now = d'.now
  mask : d.mask = d'.mask
  node : ∀ l, SameNode (l ∈ times) (d.node? l) (d'.node? l)

namespace SameNode

variable {free : Prop} {x y z : Option Node}

theorem symm (h : SameNode free x y) : SameNode free y x := by
  rcases h with rfl | ⟨hf, m, t, t', hx, hy⟩
  · exact Or.inl rfl
  · exact Or.inr ⟨hf, m, t', t, hy, hx⟩

theorem trans (h : SameNode free x y) (h' : SameNode free y z) : SameNode free x z := by
  rcases h with rfl | ⟨hf, m, t, t', hx, hy⟩
  · exact h'
  · rcases h' with rfl | ⟨_, m', s, s', hy', hz⟩
    · exact Or.inr ⟨hf, m, t, t', hx, hy⟩
    · rw [hy] at hy'
      obtain ⟨rfl, rfl⟩ : m = m' ∧ t' = s := by simpa using hy'
      exact Or.inr ⟨hf, m, t, s', hx, hz⟩

theorem outline (h : SameNode free x y) : x.map Node.outline = y.map Node.outline := by
  rcases h with rfl | ⟨_, m, t, t', rfl, rfl⟩ <;> rfl

theorem touched (h : SameNode free x y) (t : Instant) :
    x.map (Node.touched t) = y.map (Node.touched t) := by
  rcases h with rfl | ⟨_, m, s, s', rfl, rfl⟩ <;> rfl

end SameNode

namespace Alike

variable {times : List Location} {d d' d'' : Disk}

theorem refl (d : Disk) : Alike times d d := ⟨rfl, rfl, rfl, fun _ => Or.inl rfl⟩

theorem symm (h : Alike times d d') : Alike times d' d :=
  ⟨h.cwd.symm, h.now.symm, h.mask.symm, fun l => (h.node l).symm⟩

theorem trans (h : Alike times d d') (h' : Alike times d' d'') : Alike times d d'' :=
  ⟨h.cwd.trans h'.cwd, h.now.trans h'.now, h.mask.trans h'.mask,
    fun l => (h.node l).trans (h'.node l)⟩

theorem sameLayout (h : Alike times d d') : SameLayout d d' :=
  ⟨h.cwd, fun l => (h.node l).outline⟩

/-! ### Operations on alike disks -/

theorem put (h : Alike times d d') (l : Location) (n : Node) :
    Alike times (d.put l n) (d'.put l n) := by
  refine ⟨h.cwd, h.now, h.mask, fun l' => ?_⟩
  rw [node?_put, node?_put]
  split
  · exact Or.inl rfl
  · exact h.node l'

theorem touchDir (h : Alike times d d') (l : Location) :
    Alike times (d.touchDir l) (d'.touchDir l) := by
  refine ⟨h.cwd, h.now, h.mask, fun l' => ?_⟩
  rw [node?_touchDir, node?_touchDir, h.now]
  split
  · exact Or.inl ((h.node l').touched d'.now)
  · exact h.node l'

theorem created (h : Alike times d d') (dir : Location) (name : Text) (n : Node) :
    Alike times ((d.put (dir ++ [name]) n).touchDir dir)
      ((d'.put (dir ++ [name]) n).touchDir dir) :=
  (h.put _ n).touchDir dir

theorem append (h : Alike times d d') (l : Location) (bytes : Text) :
    Alike times (d.append l bytes) (d'.append l bytes) := by
  unfold Disk.append
  rcases h.node l with heq | ⟨_, m, t, t', hx, hy⟩
  · rw [heq, h.now]
    split
    · exact h.put l _
    · exact h
  · rw [hx, hy]
    exact h

/-- Something is found on both disks, alike on both, or the same error. -/
theorem find (h : Alike times d d') (follow : Bool) (p : Text) :
    (∃ l n n', d.find follow p = .ok (l, n) ∧ d'.find follow p = .ok (l, n') ∧
      n.outline = n'.outline) ∨
    ∃ e, d.find follow p = .error e ∧ d'.find follow p = .error e := by
  rcases find_congr h.sameLayout follow p with ⟨l, n, n', hd, hd', hn, hn'⟩ | he
  · refine Or.inl ⟨l, n, n', hd, hd', ?_⟩
    have := (h.node l).outline
    rw [hn, hn'] at this
    exact Option.some.inj this
  · exact Or.inr he

end Alike

/-! ### Results on alike disks -/

/-- Related results, or the same error. -/
def Agree {ε α : Type} (R : α → α → Prop) (x y : Except ε α) : Prop :=
  (∃ a b, x = .ok a ∧ y = .ok b ∧ R a b) ∨ ∃ e, x = .error e ∧ y = .error e

theorem Agree.ok {ε α : Type} {R : α → α → Prop} {a b : α} (h : R a b) :
    Agree R (.ok a : Except ε α) (.ok b) :=
  Or.inl ⟨a, b, rfl, rfl, h⟩

theorem Agree.error {ε α : Type} {R : α → α → Prop} (e : ε) :
    Agree R (.error e : Except ε α) (.error e) :=
  Or.inr ⟨e, rfl, rfl⟩

theorem isDir_of_outline {n n' : Node} (h : n.outline = n'.outline) : n.isDir = n'.isDir := by
  rw [← Node.isDir_outline n, h, Node.isDir_outline]

theorem isFile_of_outline {n n' : Node} (h : n.outline = n'.outline) : n.isFile = n'.isFile := by
  rw [← Node.isFile_outline n, h, Node.isFile_outline]

theorem readable_of_outline {n n' : Node} (h : n.outline = n'.outline) :
    n.readable = n'.readable := by
  rw [← Node.readable_outline n, h, Node.readable_outline]

namespace Alike

variable {times : List Location} {d d' : Disk}

theorem mkdir (h : Alike times d d') (p : Text) (mode : Nat) :
    Agree (Alike times) (d.mkdir p mode) (d'.mkdir p mode) := by
  unfold Disk.mkdir
  dsimp only
  rw [place_congr h.sameLayout]
  split
  · exact .error _
  · exact .error _
  · rename_i dir name _
    rw [changeable_congr (h.sameLayout.node dir), Disk.created, Disk.created, h.mask, h.now]
    split
    · exact .ok (h.created dir name _)
    · exact .error _

theorem mkdirUnlessThere (h : Alike times d d') (p : Text) (mode : Nat) :
    Alike times (d.mkdirUnlessThere p mode).1 (d'.mkdirUnlessThere p mode).1 ∧
    (d.mkdirUnlessThere p mode).2 = (d'.mkdirUnlessThere p mode).2 := by
  unfold Disk.mkdirUnlessThere Disk.lstat
  rcases h.mkdir p mode with ⟨a, a', ha, ha', hmade⟩ | ⟨e, he, he'⟩
  · rw [ha, ha']
    exact ⟨hmade, rfl⟩
  · rw [he, he']
    rcases h.find false p with ⟨l, n, n', hn, hn', hout⟩ | ⟨e', hn, hn'⟩
    · rw [hn, hn']
      exact ⟨h, by simp [Except.mapError, isDir_of_outline hout]⟩
    · rw [hn, hn']
      exact ⟨h, rfl⟩

theorem mkdirsWithin (h : Alike times d d') (fuel : Nat) (p : Text) (mode : Nat) :
    Alike times (Disk.mkdirsWithin fuel d p mode).1 (Disk.mkdirsWithin fuel d' p mode).1 ∧
    (Disk.mkdirsWithin fuel d p mode).2 = (Disk.mkdirsWithin fuel d' p mode).2 := by
  induction fuel generalizing d d' p with
  | zero => exact ⟨h, rfl⟩
  | succ k ih =>
    unfold Disk.mkdirsWithin Disk.stat
    rcases h.find true p with ⟨l, n, n', hn, hn', hout⟩ | ⟨e, he, he'⟩
    · rw [hn, hn']
      exact ⟨h, by simp [Except.mapError, isDir_of_outline hout]⟩
    · -- An error has the same cause on both disks, so the recursion goes the same way.
      rw [he, he']
      simp only [Except.mapError]
      cases container? p with
      | none => exact h.mkdirUnlessThere p mode
      | some c =>
        -- The directories above come first; what they leave is alike again.
        obtain ⟨habove, hfailed⟩ := ih h c
        dsimp only
        generalize Disk.mkdirsWithin k d c mode = r at habove hfailed ⊢
        generalize Disk.mkdirsWithin k d' c mode = r' at habove hfailed ⊢
        obtain ⟨a, f⟩ := r
        obtain ⟨a', f'⟩ := r'
        obtain rfl : f = f' := hfailed
        cases f with
        | some e => exact ⟨habove, rfl⟩
        | none => exact Alike.mkdirUnlessThere habove p mode

theorem openForWriting (h : Alike times d d') (p : Text) (mode : Nat) :
    Agree (fun r r' => r.1 = r'.1 ∧ Alike times r.2 r'.2)
      (d.openForWriting p mode) (d'.openForWriting p mode) := by
  unfold Disk.openForWriting
  rw [holder_congr h.sameLayout, place_congr h.sameLayout]
  split
  · split
    · exact .error _
    · exact .error _
  · split
    · exact .error _
    · rename_i dir name _
      rw [changeable_congr (h.sameLayout.node dir), Disk.created, Disk.created, h.mask, h.now]
      split
      · exact .ok ⟨rfl, h.created dir name _⟩
      · exact .error _
    · rename_i l _
      rcases h.node l with heq | ⟨_, m, t, t', hx, hy⟩
      · rw [heq, h.now]
        split
        · split
          · exact .ok ⟨rfl, h.put l _⟩
          · exact .error _
        · exact .error _
      · rw [hx, hy]
        exact .error _

theorem create (h : Alike times d d') (p : Text) :
    Agree (fun r r' => r.1 = r'.1 ∧ Alike times r.2 r'.2) (d.create p) (d'.create p) := by
  unfold Disk.create
  rcases h.find true p with ⟨l, n, n', hn, hn', hout⟩ | ⟨e, he, he'⟩
  · rw [hn, hn']
    dsimp only
    rw [isFile_of_outline hout, readable_of_outline hout]
    split
    · exact .error _
    · exact h.openForWriting p _
  · rw [he, he']
    exact h.openForWriting p _

theorem writeFile (h : Alike times d d') (p data : Text) (mode : Nat) :
    Agree (Alike times) (d.writeFile p data mode) (d'.writeFile p data mode) := by
  unfold Disk.writeFile
  rcases h.openForWriting p mode with ⟨⟨l, b⟩, ⟨l', b'⟩, hb, hb', hl, hopened⟩ | ⟨e, he, he'⟩
  · obtain rfl : l = l' := hl
    rw [hb, hb']
    exact .ok (Alike.append hopened l data)
  · rw [he, he']
    exact .error e

end Alike

/-! ### Adding to files -/

/-- Changes of a disk that only add to files. -/
inductive Adding : (Disk → Disk) → Prop where
  | nothing : Adding id
  | more {f : Disk → Disk} (h : Adding f) (l : Location) (bytes : Text) :
      Adding fun d => (f d).append l bytes

namespace Adding

variable {f g : Disk → Disk}

theorem comp (hg : Adding g) (hf : Adding f) : Adding (g ∘ f) := by
  induction hg with
  | nothing => exact hf
  | more _ l bytes ih => exact ih.more l bytes

theorem alike (hf : Adding f) {times : List Location} {d d' : Disk} (h : Alike times d d') :
    Alike times (f d) (f d') := by
  induction hf with
  | nothing => exact h
  | more _ l bytes ih => exact ih.append l bytes

theorem sameLayout (hf : Adding f) (d : Disk) : SameLayout d (f d) := by
  induction hf with
  | nothing => exact ⟨rfl, fun _ => rfl⟩
  | @more f _ l bytes ih =>
    have happend := sameLayout_append (f d) l bytes
    exact ⟨ih.cwd.trans happend.cwd, fun l' => (ih.node l').trans (happend.node l')⟩

end Adding

end Disk

open Disk (Adding Alike)

/-! ### Logs

  A log that is open only adds to files, and the log that each operation leaves does not
  depend on what the disk holds. So an operation is given by what it adds (`f` below). -/

namespace CaseLog

theorem add_adding (l : CaseLog) (t : Text) : Adding fun d => l.add d t := by
  unfold add
  split
  · exact Adding.nothing.more l.location t
  · exact Adding.nothing

theorem write_adding (l : CaseLog) (c : Channel) (piece : Text) :
    ∃ f l' failed, Adding f ∧ ∀ d, l.write d c piece = (l', f d, failed) := by
  unfold write
  split
  · exact ⟨id, _, _, .nothing, fun _ => rfl⟩
  · exact ⟨_, _, _, l.add_adding _, fun _ => rfl⟩

theorem endLine_adding (l : CaseLog) (c : Channel) :
    ∃ f l', Adding f ∧ ∀ d, l.endLine d c = (l', f d) := by
  unfold endLine
  split
  · exact ⟨id, _, .nothing, fun _ => rfl⟩
  · exact ⟨_, _, l.add_adding _, fun _ => rfl⟩

theorem endLines_adding (l : CaseLog) : ∃ f l', Adding f ∧ ∀ d, l.endLines d = (l', f d) := by
  obtain ⟨f, l₁, hf, h₁⟩ := l.endLine_adding .out
  obtain ⟨g, l₂, hg, h₂⟩ := l₁.endLine_adding .err
  refine ⟨g ∘ f, l₂, hg.comp hf, fun d => ?_⟩
  simp only [endLines, h₁, h₂]
  rfl

theorem beginSection_adding (l : CaseLog) (title : Text) :
    ∃ f l' failed, Adding f ∧ ∀ d, l.beginSection d title = (l', f d, failed) := by
  obtain ⟨f, l', hf, h⟩ := l.endLines_adding
  unfold beginSection
  simp only [h]
  cases l'.state with
  | opened => exact ⟨_, _, _, (l'.add_adding _).comp hf, fun _ => rfl⟩
  | broken => exact ⟨f, _, _, hf, fun _ => rfl⟩
  | closed => exact ⟨f, _, _, hf, fun _ => rfl⟩

theorem close_adding (l : CaseLog) :
    ∃ f l' failed, Adding f ∧ ∀ d, l.close d = (l', f d, failed) := by
  obtain ⟨f, l', hf, h⟩ := l.endLines_adding
  unfold close
  simp only [h]
  cases l'.state with
  | opened => exact ⟨f, _, _, hf, fun _ => rfl⟩
  | broken => exact ⟨f, _, _, hf, fun _ => rfl⟩
  | closed => exact ⟨f, _, _, hf, fun _ => rfl⟩

end CaseLog

/-! ### Heedless tools and logs -/

/-- A toolchain that does the same on alike disks, and leaves them alike. -/
def Toolchain.Heedless {σ : Type} (times : List Location) (tools : Toolchain σ) : Prop :=
  ∀ (cmd : Command) (memory : σ) (m m' : Machine), Alike times m.disk m'.disk →
    m.cancelled = m'.cancelled →
    Alike times (tools cmd memory m).machine.disk (tools cmd memory m').machine.disk ∧
    (tools cmd memory m).machine.cancelled = (tools cmd memory m').machine.cancelled ∧
    (tools cmd memory m).ending = (tools cmd memory m').ending ∧
    (tools cmd memory m).writes = (tools cmd memory m').writes ∧
    (tools cmd memory m).memory = (tools cmd memory m').memory

/-- Logs that are opened in the same way on alike disks, and leave them alike. -/
def LogSource.Heedless (times : List Location) (logs : LogSource) : Prop :=
  ∀ (run : Text) (case : Case) (d d' : Disk), Alike times d d' →
    Alike times (logs run case d).1 (logs run case d').1 ∧
    (logs run case d).2 = (logs run case d').2

/-- The logs of a store do not look at times. -/
theorem LogStore.source_heedless (s : LogStore) (times : List Location) :
    s.source.Heedless times := by
  intro run case d d' h
  unfold LogStore.source CaseLog.start
  by_cases hrun : run = []
  · rw [if_pos hrun, if_pos hrun]
    exact ⟨h, rfl⟩
  rw [if_neg hrun, if_neg hrun]
  obtain ⟨hmade, hfailed⟩ := h.mkdirsWithin ((s.runDir run).length + 1) (s.runDir run) 0o755
  unfold Disk.mkdirs
  generalize Disk.mkdirsWithin _ d _ _ = r at hmade hfailed ⊢
  generalize Disk.mkdirsWithin _ d' _ _ = r' at hmade hfailed ⊢
  obtain ⟨a, f⟩ := r
  obtain ⟨a', f'⟩ := r'
  obtain rfl : f = f' := hfailed
  cases f with
  | some e => exact ⟨hmade, rfl⟩
  | none =>
    dsimp only
    rcases Alike.create hmade (s.logPath run case) with
      ⟨⟨l, b⟩, ⟨l', b'⟩, hb, hb', hl, hcreated⟩ | ⟨e, he, he'⟩
    · obtain rfl : l = l' := hl
      rw [hb, hb']
      exact ⟨hcreated, rfl⟩
    · rw [he, he']
      exact ⟨hmade, rfl⟩

/-! ### Worlds -/

namespace World

variable {σ : Type}

/-- Worlds with alike disks that are otherwise equal. -/
structure Alike (times : List Location) (w w' : World σ) : Prop where
  disk : Disk.Alike times w.disk w'.disk
  others : w'.withDisk w.disk = w

/-- What taking output does: the terminal gets it, and the log adds to its file. -/
theorem takeOutput_adding (log : Option CaseLog) (pieces : List (Channel × Text)) :
    ∃ f log', Adding f ∧ ∀ w : World σ, w.takeOutput log pieces =
      (World.withDisk { w with terminal := pieces.foldl (fun t p => t.write p.1 p.2) w.terminal }
        (f w.disk), log') := by
  induction pieces generalizing log with
  | nil => exact ⟨id, log, .nothing, fun _ => rfl⟩
  | cons p rest ih =>
    obtain ⟨ch, piece⟩ := p
    cases log with
    | none =>
      obtain ⟨f, log', hf, h⟩ := ih none
      refine ⟨f, log', hf, fun w => ?_⟩
      simp only [takeOutput, h]
      rfl
    | some l =>
      obtain ⟨f, l', _, hf, hl⟩ := l.write_adding ch piece
      obtain ⟨g, log', hg, h⟩ := ih (some l')
      refine ⟨g ∘ f, log', hg.comp hf, fun w => ?_⟩
      simp only [takeOutput, hl, h]
      rfl

/-- What issuing a command does: the toolchain acts, and then its output is taken. -/
theorem issue_adding (log : Option CaseLog) (writes : List (Channel × Text)) :
    ∃ f log', Adding f ∧ ∀ (w : World σ) (tools : Toolchain σ) (cmd : Command),
      (tools cmd w.memory w.machine).writes = writes →
      w.issue tools log cmd =
        ((tools cmd w.memory w.machine).ending,
          { w with
            machine := { (tools cmd w.memory w.machine).machine with
              disk := f (tools cmd w.memory w.machine).machine.disk }
            memory := (tools cmd w.memory w.machine).memory
            terminal := writes.foldl (fun t p => t.write p.1 p.2) w.terminal
            issued := w.issued ++ [cmd] }, log') := by
  obtain ⟨f, log', hf, h⟩ := takeOutput_adding (σ := σ) log writes
  refine ⟨f, log', hf, fun w tools cmd hwrites => ?_⟩
  simp only [issue, hwrites, h]
  rfl

namespace Alike

variable {times : List Location} {w w' : World σ}

theorem memory (h : Alike times w w') : w.memory = w'.memory :=
  (congrArg World.memory h.others).symm

theorem cancelled (h : Alike times w w') : w.machine.cancelled = w'.machine.cancelled :=
  (congrArg (·.machine.cancelled) h.others).symm

theorem withDisk (h : Alike times w w') {d d' : Disk} (hd : Disk.Alike times d d') :
    Alike times (w.withDisk d) (w'.withDisk d') :=
  ⟨hd, congrArg (·.withDisk d) h.others⟩

theorem ended (h : Alike times w w') (s : Span) : Alike times (w.ended s) (w'.ended s) :=
  ⟨h.disk, congrArg (·.ended s) h.others⟩

theorem measured (h : Alike times w w') (f : Metrics → Metrics) :
    Alike times (w.measured f) (w'.measured f) :=
  ⟨h.disk, congrArg (·.measured f) h.others⟩

theorem issue {tools : Toolchain σ} (ht : tools.Heedless times) (h : Alike times w w')
    (log : Option CaseLog) (cmd : Command) :
    (w.issue tools log cmd).1 = (w'.issue tools log cmd).1 ∧
    Alike times (w.issue tools log cmd).2.1 (w'.issue tools log cmd).2.1 ∧
    (w.issue tools log cmd).2.2 = (w'.issue tools log cmd).2.2 := by
  obtain ⟨hdisk, hcancelled, hending, hwrites, hmemory⟩ :=
    ht cmd w.memory w.machine w'.machine h.disk h.cancelled
  obtain ⟨f, log', hf, hissue⟩ :=
    issue_adding log (tools cmd w'.memory w'.machine).writes
  rw [h.memory] at hdisk hcancelled hending hwrites hmemory
  rw [hissue w tools cmd (by rw [h.memory]; exact hwrites), hissue w' tools cmd rfl, h.memory]
  refine ⟨hending, ⟨hf.alike hdisk, ?_⟩, rfl⟩
  -- Everything but the disk comes from the reaction or from the world before.
  have hterminal := congrArg World.terminal h.others
  have hmetrics := congrArg World.metrics h.others
  have hspans := congrArg World.spans h.others
  have hissued := congrArg World.issued h.others
  simp only [World.withDisk] at hterminal hmetrics hspans hissued
  simp only [World.withDisk, World.disk, hcancelled, hmemory, hterminal, hmetrics, hspans, hissued]

end Alike

end World

/-! ### Courses -/

namespace Course

variable {σ : Type} {times : List Location} {w w' : World σ}

theorem beginSection_adding (s : Stage) (log : Option CaseLog) :
    ∃ f log', Adding f ∧ ∀ w : World σ, beginSection s w log = (w.withDisk (f w.disk), log') := by
  cases log with
  | none => exact ⟨id, none, .nothing, fun _ => rfl⟩
  | some l =>
    obtain ⟨f, l', _, hf, h⟩ := l.beginSection_adding s.label
    refine ⟨f, some l', hf, fun w => ?_⟩
    simp only [beginSection, h]

theorem closeLog_adding (log : Option CaseLog) :
    ∃ f, Adding f ∧ ∀ w : World σ, closeLog w log = w.withDisk (f w.disk) := by
  cases log with
  | none => exact ⟨id, .nothing, fun _ => rfl⟩
  | some l =>
    obtain ⟨f, l', _, hf, h⟩ := l.close_adding
    refine ⟨f, hf, fun w => ?_⟩
    simp only [closeLog, h]

/-- The checks before a stage do not look at times. -/
theorem hindrance?_alike (c : Course) (case : Case) (s : Stage) {m m' : Machine}
    (hd : Alike times m.disk m'.disk) (hc : m.cancelled = m'.cancelled) :
    c.hindrance? case s m = c.hindrance? case s m' := by
  unfold hindrance? Disk.stat
  rw [hc]
  rcases hd.find true (c.artifacts case).assembly with ⟨l, n, n', hn, hn', _⟩ | ⟨e, he, he'⟩
  · simp only [hn, hn', Except.mapError]
  · simp only [he, he', Except.mapError]

theorem runStage_alike (c : Course) {tools : Toolchain σ} (ht : tools.Heedless times)
    (case : Case) (s : Stage) (h : World.Alike times w w') (log : Option CaseLog) :
    (c.runStage tools case s w log).1 = (c.runStage tools case s w' log).1 ∧
    World.Alike times (c.runStage tools case s w log).2.1 (c.runStage tools case s w' log).2.1 ∧
    (c.runStage tools case s w log).2.2 = (c.runStage tools case s w' log).2.2 := by
  unfold runStage
  rw [c.hindrance?_alike case s h.disk h.cancelled]
  split
  · exact ⟨rfl, h.ended _, rfl⟩
  · obtain ⟨f, log', hf, hbegin⟩ := beginSection_adding (σ := σ) s log
    obtain ⟨hending, hworld, hlog⟩ := (h.withDisk (hf.alike h.disk)).issue ht log'
      { c.stageCommand case s with captured := log'.isSome }
    simp only [perform, hbegin]
    exact ⟨by rw [hending], by rw [hending]; exact hworld.ended _, hlog⟩

/-- Stages run alike on alike disks. -/
theorem runStages_alike (c : Course) {tools : Toolchain σ} (ht : tools.Heedless times)
    (case : Case) (stages : List Stage) (h : World.Alike times w w') (log : Option CaseLog) :
    (c.runStages tools case stages w log).1 = (c.runStages tools case stages w' log).1 ∧
    World.Alike times (c.runStages tools case stages w log).2.1
      (c.runStages tools case stages w' log).2.1 ∧
    (c.runStages tools case stages w log).2.2 = (c.runStages tools case stages w' log).2.2 := by
  induction stages generalizing w w' log with
  | nil => exact ⟨rfl, h, rfl⟩
  | cons s rest ih =>
    obtain ⟨hrecord, hworld, hlog⟩ := c.runStage_alike ht case s h log
    simp only [runStages]
    -- The records are the same, so both go on or both stop.
    rw [hrecord, hlog]
    have hmeasured := hworld.measured fun m =>
      m.recordStage s (c.runStage tools case s w' log).1.passed
        (c.runStage tools case s w' log).1.duration
    split
    · obtain ⟨hrecords, hlast, hlog'⟩ := ih hmeasured (c.runStage tools case s w' log).2.2
      exact ⟨by rw [hrecords], hlast, hlog'⟩
    · exact ⟨rfl, hmeasured, rfl⟩

theorem openLog_alike (c : Course) (hl : ∀ logs ∈ c.logs, logs.Heedless times) (run : Text)
    (case : Case) (h : World.Alike times w w') :
    World.Alike times (c.openLog run case w).1 (c.openLog run case w').1 ∧
    (c.openLog run case w).2 = (c.openLog run case w').2 := by
  unfold openLog
  cases hlogs : c.logs with
  | none => exact ⟨h, rfl⟩
  | some source =>
    obtain ⟨hdisk, hresult⟩ := hl source hlogs run case w.disk w'.disk h.disk
    dsimp only
    generalize source run case w.disk = r at hdisk hresult ⊢
    generalize source run case w'.disk = r' at hdisk hresult ⊢
    obtain ⟨d, x⟩ := r
    obtain ⟨d', x'⟩ := r'
    obtain rfl : x = x' := hresult
    cases x with
    | ok l => exact ⟨h.withDisk hdisk, rfl⟩
    | error f =>
      exact ⟨(h.withDisk hdisk).measured fun m => m.recordErrorDetails "test_log" (some f), rfl⟩

theorem finish_alike (r : CaseResult) (h : World.Alike times w w') :
    (finish r w).1 = (finish r w').1 ∧ World.Alike times (finish r w).2 (finish r w').2 :=
  ⟨rfl, (h.measured _).ended _⟩

/-- A case comes to the same result if clearing its artifacts has left alike disks. -/
theorem run_alike (c : Course) {tools : Toolchain σ} (ht : tools.Heedless times)
    (hl : ∀ logs ∈ c.logs, logs.Heedless times) (id : Text) (case : Case)
    (hothers : w'.withDisk w.disk = w)
    (hdisk : Alike times ((c.artifacts case).clean w.disk).1 ((c.artifacts case).clean w'.disk).1)
    (hfailed : ((c.artifacts case).clean w.disk).2 = ((c.artifacts case).clean w'.disk).2) :
    (c.run tools id case w).1 = (c.run tools id case w').1 ∧
    World.Alike times (c.run tools id case w).2 (c.run tools id case w').2 := by
  unfold run
  generalize (c.artifacts case).clean w.disk = r at hdisk hfailed ⊢
  generalize (c.artifacts case).clean w'.disk = r' at hdisk hfailed ⊢
  obtain ⟨d, x⟩ := r
  obtain ⟨d', x'⟩ := r'
  obtain rfl : x = x' := hfailed
  have hstart : World.Alike times (w.withDisk d) (w'.withDisk d') :=
    ⟨hdisk, congrArg (·.withDisk d) hothers⟩
  cases x with
  | some f => exact finish_alike _ hstart
  | none =>
    obtain ⟨hopen, hlog⟩ := c.openLog_alike hl id case hstart
    obtain ⟨hrecords, hworld, hlog'⟩ := c.runStages_alike ht case Stage.all hopen
      (c.openLog id case (w.withDisk d)).2
    obtain ⟨f, hf, hclose⟩ := closeLog_adding (σ := σ)
      (c.runStages tools case Stage.all (c.openLog id case (w'.withDisk d')).1
        (c.openLog id case (w.withDisk d)).2).2.2
    -- What is added when the log is closed depends on the log only, which is the same.
    dsimp only
    rw [← hlog, hlog', hrecords, hclose, hclose]
    exact finish_alike _ (hworld.withDisk (hf.alike hworld.disk))

end Course

end Gauntlet
