import Gauntlet.Proofs.Heedless
import Gauntlet.Proofs.Stages

/-! # The calls of a toolchain

  A toolchain can be made to note the calls made to it, with how each call ended and with the
  disk as it was before and after it. Noting changes nothing else (`run_unnoted`), so what the
  notes tell holds of every run.

  - A stage that is performed makes one call and records how it ended, and between the calls
    the disk changes by what is added to the log (`runStage_calls`).
  - Stages only add to the notes, and note the commands that they issue
    (`runStages_calls`).
  - So the calls of a case and its records tell the same story (`run_orderly`).
-/

namespace Gauntlet

open Disk (SameLayout)

/-- One call of the toolchain: the command, how it ended, and the disk before and after it. -/
structure Call where
  command : Command
  ending : Ending
  before : Disk
  after : Disk

/-- A toolchain that notes the calls made to it. -/
def Toolchain.noted {σ : Type} (tools : Toolchain σ) : Toolchain (σ × List Call) :=
  fun cmd memory m =>
    let r := tools cmd memory.1 m
    { ending := r.ending, writes := r.writes, machine := r.machine
      memory := (r.memory, memory.2 ++ [⟨cmd, r.ending, m.disk, r.machine.disk⟩]) }

namespace World

variable {σ : Type}

/-- The world with no calls noted yet. -/
def noting (w : World σ) : World (σ × List Call) :=
  { machine := w.machine, memory := (w.memory, []), terminal := w.terminal
    metrics := w.metrics, spans := w.spans, issued := w.issued }

/-- The world without the notes. -/
def unnoted (w : World (σ × List Call)) : World σ :=
  { machine := w.machine, memory := w.memory.1, terminal := w.terminal
    metrics := w.metrics, spans := w.spans, issued := w.issued }

end World

/-! ### Noting changes nothing

  A toolchain that notes something mimics the one that does not: it does the same, and only
  its memory holds more. What part of the memory is left when the notes are taken away is
  given by a function. -/

/-- A toolchain does what another one does, with a memory of which `f` gives the other's. -/
def Toolchain.Mimics {σ τ : Type} (tools : Toolchain τ) (f : τ → σ) (other : Toolchain σ) : Prop :=
  ∀ cmd memory m, other cmd (f memory) m =
    { ending := (tools cmd memory m).ending, writes := (tools cmd memory m).writes
      machine := (tools cmd memory m).machine, memory := f (tools cmd memory m).memory }

theorem Toolchain.noted_mimics {σ : Type} (tools : Toolchain σ) :
    tools.noted.Mimics Prod.fst tools := fun _ _ _ => rfl

namespace World

variable {σ τ : Type} (f : τ → σ)

/-- The world with less in memory. -/
def seen (w : World τ) : World σ :=
  { machine := w.machine, memory := f w.memory, terminal := w.terminal
    metrics := w.metrics, spans := w.spans, issued := w.issued }

theorem takeOutput_seen (w : World τ) (log : Option CaseLog) (pieces : List (Channel × Text)) :
    (w.seen f).takeOutput log pieces =
      ((w.takeOutput log pieces).1.seen f, (w.takeOutput log pieces).2) := by
  induction pieces generalizing w log with
  | nil => rfl
  | cons p rest ih =>
    obtain ⟨ch, piece⟩ := p
    cases log with
    | none => exact ih { w with terminal := w.terminal.write ch piece } none
    | some l =>
      exact ih (World.withDisk { w with terminal := w.terminal.write ch piece }
        (l.write w.disk ch piece).2.1) (some (l.write w.disk ch piece).1)

variable {f} {tools : Toolchain τ} {other : Toolchain σ}

theorem issue_seen (h : tools.Mimics f other) (w : World τ) (log : Option CaseLog)
    (cmd : Command) :
    (w.seen f).issue other log cmd =
      ((w.issue tools log cmd).1, (w.issue tools log cmd).2.1.seen f,
        (w.issue tools log cmd).2.2) := by
  have htake := takeOutput_seen f
    { w with
      machine := (tools cmd w.memory w.machine).machine
      memory := (tools cmd w.memory w.machine).memory
      issued := w.issued ++ [cmd] } log (tools cmd w.memory w.machine).writes
  unfold issue
  rw [show (w.seen f).memory = f w.memory from rfl, show (w.seen f).machine = w.machine from rfl,
    h cmd w.memory w.machine]
  exact congrArg (fun r => ((tools cmd w.memory w.machine).ending, r)) htake

end World

namespace Course

section Seen

variable {σ τ : Type} {f : τ → σ} {tools : Toolchain τ} {other : Toolchain σ}

theorem beginSection_seen (s : Stage) (w : World τ) (log : Option CaseLog) :
    beginSection s (w.seen f) log =
      ((beginSection s w log).1.seen f, (beginSection s w log).2) := by
  cases log <;> rfl

theorem runStage_seen (h : tools.Mimics f other) (c : Course) (case : Case) (s : Stage)
    (w : World τ) (log : Option CaseLog) :
    c.runStage other case s (w.seen f) log =
      ((c.runStage tools case s w log).1, (c.runStage tools case s w log).2.1.seen f,
        (c.runStage tools case s w log).2.2) := by
  unfold runStage
  rw [show (w.seen f).machine = w.machine from rfl]
  split
  · rfl
  · simp only [perform, beginSection_seen, World.issue_seen h]
    rfl

theorem runStages_seen (h : tools.Mimics f other) (c : Course) (case : Case)
    (stages : List Stage) (w : World τ) (log : Option CaseLog) :
    c.runStages other case stages (w.seen f) log =
      ((c.runStages tools case stages w log).1,
        (c.runStages tools case stages w log).2.1.seen f,
        (c.runStages tools case stages w log).2.2) := by
  induction stages generalizing w log with
  | nil => rfl
  | cons s rest ih =>
    simp only [runStages, runStage_seen h]
    split
    · have hrest := ih ((c.runStage tools case s w log).2.1.measured fun m =>
        m.recordStage s (c.runStage tools case s w log).1.passed
          (c.runStage tools case s w log).1.duration)
        (c.runStage tools case s w log).2.2
      exact congrArg (fun r => ((c.runStage tools case s w log).1 :: r.1, r.2)) hrest
    · rfl

theorem openLog_seen (c : Course) (run : Text) (case : Case) (w : World τ) :
    c.openLog run case (w.seen f) =
      ((c.openLog run case w).1.seen f, (c.openLog run case w).2) := by
  unfold openLog
  cases c.logs with
  | none => rfl
  | some source =>
    dsimp only
    rw [show (w.seen f).disk = w.disk from rfl]
    rcases source run case w.disk with ⟨d, _ | _⟩ <;> rfl

theorem closeLog_seen (w : World τ) (log : Option CaseLog) :
    closeLog (w.seen f) log = (closeLog w log).seen f := by
  cases log <;> rfl

/-- A toolchain that mimics another one brings a case to the same result. -/
theorem run_seen (h : tools.Mimics f other) (c : Course) (id : Text) (case : Case) (w : World τ) :
    c.run other id case (w.seen f) =
      ((c.run tools id case w).1, (c.run tools id case w).2.seen f) := by
  unfold run
  rw [show (w.seen f).disk = w.disk from rfl]
  rcases (c.artifacts case).clean w.disk with ⟨d, _ | f'⟩
  · dsimp only
    rw [show (w.seen f).withDisk d = (w.withDisk d).seen f from rfl]
    simp only [openLog_seen, runStages_seen h, closeLog_seen]
    rfl
  · rfl

end Seen

variable {σ : Type}

/-- Noting the calls changes nothing else. -/
theorem run_unnoted (c : Course) (tools : Toolchain σ) (id : Text) (case : Case)
    (w : World (σ × List Call)) :
    c.run tools id case w.unnoted =
      ((c.run tools.noted id case w).1, (c.run tools.noted id case w).2.unnoted) :=
  run_seen tools.noted_mimics c id case w

/-! ### What is noted -/

/-- A record tells which call was made for its stage, and how the call ended. -/
structure Recounts (k : Call) (r : StageRecord) : Prop where
  command : r.command = k.command.text
  exitCode : r.exitCode = k.ending.exitCode
  timedOut : r.timedOut = k.ending.timedOut
  cause : r.cause = k.ending.cause
  duration : r.duration = k.ending.duration

/-- A stage that is performed makes one call, which its record tells. Before and after it the
    disk changes by what is added to the log only. -/
theorem runStage_calls (c : Course) (tools : Toolchain σ) (case : Case) (s : Stage)
    (w : World (σ × List Call)) (log : Option CaseLog) :
    ((c.runStage tools.noted case s w log).1.passed = false ∧
      (c.runStage tools.noted case s w log).2.1.memory.2 = w.memory.2 ∧
      (c.runStage tools.noted case s w log).2.1.issued = w.issued) ∨
    (c.hindrance? case s w.machine = none ∧ ∃ k : Call,
      (c.runStage tools.noted case s w log).2.1.memory.2 = w.memory.2 ++ [k] ∧
      (c.runStage tools.noted case s w log).2.1.issued = w.issued ++ [k.command] ∧
      Recounts k (c.runStage tools.noted case s w log).1 ∧
      SameLayout w.disk k.before ∧
      SameLayout k.after (c.runStage tools.noted case s w log).2.1.disk) := by
  unfold runStage
  split
  · exact Or.inl ⟨passed_hinderedRecord s _, rfl, rfl⟩
  · rename_i hnone
    -- `f` adds the heading before the call, and `g` adds the output after it.
    obtain ⟨f, log', hf, hbegin⟩ := beginSection_adding (σ := σ × List Call) s log
    generalize hcmd : ({ c.stageCommand case s with captured := log'.isSome } : Command) = cmd
    obtain ⟨g, log'', hg, hissue⟩ := World.issue_adding (σ := σ × List Call) log'
      (tools.noted cmd w.memory (w.withDisk (f w.disk)).machine).writes
    simp only [perform, hbegin, hcmd]
    rw [hissue _ tools.noted cmd rfl]
    let r := tools cmd w.memory.1 (w.withDisk (f w.disk)).machine
    refine Or.inr ⟨hnone, ⟨cmd, r.ending, f w.disk, r.machine.disk⟩, rfl, rfl,
      ⟨rfl, rfl, rfl, rfl, rfl⟩, hf.sameLayout w.disk, ?_⟩
    exact hg.sameLayout _

/-- Stages add to the notes only, note what they issue and record what they note. If they make
    a call, then the first of them is not hindered. -/
theorem runStages_calls (c : Course) (tools : Toolchain σ) (case : Case) (stages : List Stage)
    (w : World (σ × List Call)) (log : Option CaseLog) :
    ∃ calls, (c.runStages tools.noted case stages w log).2.1.memory.2 = w.memory.2 ++ calls ∧
      (c.runStages tools.noted case stages w log).2.1.issued =
        w.issued ++ calls.map Call.command ∧
      List.Forall₂ Recounts calls
        ((c.runStages tools.noted case stages w log).1.take calls.length) ∧
      (calls ≠ [] → ∀ s ∈ stages.head?, c.hindrance? case s w.machine = none) := by
  induction stages generalizing w log with
  | nil => exact ⟨[], by simp [runStages], by simp [runStages], by simp, by simp⟩
  | cons s rest ih =>
    simp only [runStages]
    rcases c.runStage_calls tools case s w log with
      ⟨hfailed, hm, hi⟩ | ⟨hnone, k, hm, hi, hrecord, _⟩
    · rw [hfailed, if_neg Bool.false_ne_true]
      exact ⟨[], by simpa [World.measured] using hm, by simpa using hi, by simp, by simp⟩
    · -- The call of this stage comes first; if it passed, those of the others follow.
      split
      · obtain ⟨calls, hm', hi', hrecords, _⟩ :=
          ih ((c.runStage tools.noted case s w log).2.1.measured fun m =>
            m.recordStage s (c.runStage tools.noted case s w log).1.passed
              (c.runStage tools.noted case s w log).1.duration)
            (c.runStage tools.noted case s w log).2.2
        refine ⟨k :: calls, ?_, ?_, .cons hrecord hrecords, fun _ => by simpa using hnone⟩
        · rw [List.append_cons, ← hm]
          exact hm'
        · rw [List.map_cons, List.append_cons, ← hi]
          exact hi'
      · exact ⟨[k], hm, hi, .cons hrecord .nil, fun _ => by simpa using hnone⟩

theorem memory_openLog (c : Course) (run : Text) (case : Case) (w : World σ) :
    (c.openLog run case w).1.memory = w.memory := by
  unfold openLog
  split
  · rfl
  · split <;> rfl

theorem memory_closeLog (w : World σ) (log : Option CaseLog) :
    (closeLog w log).memory = w.memory := by
  cases log <;> rfl

theorem memory_finish (r : CaseResult) (w : World σ) : (finish r w).2.memory = w.memory := rfl

theorem memory_withDisk (w : World σ) (d : Disk) : (w.withDisk d).memory = w.memory := rfl

/-- A case notes what it issues, and records what it notes. -/
theorem run_calls (c : Course) (tools : Toolchain σ) (id : Text) (case : Case)
    (w : World (σ × List Call)) :
    ∃ calls, (c.run tools.noted id case w).2.memory.2 = w.memory.2 ++ calls ∧
      (c.run tools.noted id case w).2.issued = w.issued ++ calls.map Call.command ∧
      List.Forall₂ Recounts calls ((c.run tools.noted id case w).1.stages.take calls.length) := by
  unfold run
  split
  · exact ⟨[], by simp [memory_finish, memory_withDisk], by simp [issued_finish], by simp⟩
  · rename_i d _
    obtain ⟨calls, hm, hi, hrecords, _⟩ := c.runStages_calls tools case Stage.all
      (c.openLog id case (w.withDisk d)).1 (c.openLog id case (w.withDisk d)).2
    refine ⟨calls, ?_, ?_, hrecords⟩
    · rw [memory_finish, memory_closeLog, hm, memory_openLog, memory_withDisk]
    · rw [issued_finish, issued_closeLog, hi, issued_openLog, World.issued_withDisk]

/-- The calls of a case make up its passage through the stages. -/
theorem run_noted (c : Course) (tools : Toolchain σ) (id : Text) (case : Case) (w : World σ) :
    ∃ captured rs,
      Passage (c.issuedCommand case captured) (Reason (c.artifacts case)) Stage.all rs
        ((c.run tools.noted id case w.noting).2.memory.2.map Call.command) ∧
      (c.run tools.noted id case w.noting).1 = resultOf case rs ∧
      (c.run tools.noted id case w.noting).2.issued =
        w.issued ++ (c.run tools.noted id case w.noting).2.memory.2.map Call.command ∧
      List.Forall₂ Recounts (c.run tools.noted id case w.noting).2.memory.2
        (rs.take (c.run tools.noted id case w.noting).2.memory.2.length) ∧
      ((c.run tools.noted id case w.noting).2.memory.2 = [] ↔
        ((c.artifacts case).clean w.disk).2.isSome = true ∨ w.machine.cancelled = true) := by
  obtain ⟨calls, hcalls, hissued, hrecords⟩ := c.run_calls tools id case w.noting
  obtain ⟨captured, rs, cs, hpassage, hresult, hissued', hnone⟩ :=
    c.run_passage tools.noted id case w.noting
  -- What is noted is what is issued, so it is what the passage says.
  obtain rfl : calls.map Call.command = cs :=
    List.append_cancel_left (hissued.symm.trans hissued')
  rw [show w.noting.memory.2 = [] from rfl, List.nil_append] at hcalls
  rw [hresult] at hrecords
  rw [hcalls]
  rw [List.map_eq_nil_iff] at hnone
  exact ⟨captured, rs, hpassage, hresult, hissued, hrecords, hnone⟩

/-- **The stage machine.** Whatever the case, the disk, the toolchain and the moment of a
    cancellation, a case comes to a result whose records and verdict agree. The calls that the
    toolchain gets, told by one that notes them and does the same otherwise, are for the
    launcher's, the linker's and the binary's command, cut to the recorded stages: each record
    tells the command of its call and how it ended, except that the last one may tell why its
    stage was not performed. No call is made exactly if an artifact of an earlier run cannot be
    removed or the run is cancelled from the start. -/
theorem run_orderly (c : Course) (tools : Toolchain σ) (id : Text) (case : Case) (w : World σ) :
    let noted := c.run tools.noted id case w.noting
    let calls := noted.2.memory.2
    let result := (c.run tools id case w).1
    c.run tools id case w = (noted.1, noted.2.unnoted) ∧
    result.case = case ∧
    Orderly result ∧
    calls.length ≤ result.stages.length ∧
    result.stages.length ≤ calls.length + 1 ∧
    (calls.length < result.stages.length →
      ∃ s f, Reason (c.artifacts case) s f ∧
        result.stages.getLast? = some (hinderedRecord s f)) ∧
    List.Forall₂ Recounts calls (result.stages.take calls.length) ∧
    (calls = [] ↔
      ((c.artifacts case).clean w.disk).2.isSome = true ∨ w.machine.cancelled = true) ∧
    (c.run tools id case w).2.issued = w.issued ++ calls.map Call.command ∧
    ∃ captured, calls.map Call.command =
      [({ program := c.launcher, args := c.launcherArgs ++ [case.source],
          dir := c.workDir, timeout := c.timeout, captured } : Command),
       { program := c.linker,
         args := c.linkerArgs ++
           [(c.artifacts case).assembly, "-o", (c.artifacts case).binary],
         dir := c.workDir, timeout := c.timeout, captured },
       { program := (c.artifacts case).binary, args := [],
         dir := c.workDir, timeout := c.timeout, captured }].take calls.length := by
  intro noted calls result
  have hunnoted : c.run tools id case w = (noted.1, noted.2.unnoted) :=
    c.run_unnoted tools id case w.noting
  obtain ⟨captured, rs, hpassage, hresult, hissued, hrecords, hnone⟩ := c.run_noted tools id case w
  obtain ⟨hcommands, hle, hge, hlast⟩ := hpassage.commands_eq
  rw [List.length_map] at hcommands hle hge hlast
  have hsame : result = resultOf case rs := (congrArg Prod.fst hunnoted).trans hresult
  rw [hsame]
  refine ⟨hunnoted, rfl, hpassage.orderly case, hle, hge, hlast, hrecords, hnone, ?_, captured, ?_⟩
  · rw [hunnoted]
    exact hissued
  · rw [hcommands, List.map_take, map_issuedCommand_all]

end Course

end Gauntlet
