import Gauntlet.Proofs.Calls
import Gauntlet.Proofs.Transcript

/-! # The log of a case

  What a command writes goes to the log under the heading of its stage. To say this of every
  toolchain, one that notes what its commands write takes its place (`Toolchain.overheard`);
  noting changes nothing else.

  The stages carry the invariant of the log along: what is left open belongs to the last stage
  that was performed, and the next heading, or the close, ends it (`perform_kept`). So the file
  holds one part for each stage that issued a command, with what this command wrote and nothing
  else (`run_heard`). The toolchain must leave the file alone, but it may do anything else.
-/

namespace Gauntlet

variable {σ : Type}

/-- The output of pieces, byte by byte. -/
def Output.ofPieces (pieces : List (Channel × Text)) : Output :=
  pieces.flatMap fun p => Output.ofPiece p.1 p.2

/-- A toolchain that notes what each command writes. -/
def Toolchain.overheard (tools : Toolchain σ) : Toolchain (σ × List (List (Channel × Text))) :=
  fun cmd memory m =>
    let r := tools cmd memory.1 m
    { ending := r.ending, writes := r.writes, machine := r.machine
      memory := (r.memory, memory.2 ++ [r.writes]) }

theorem Toolchain.overheard_mimics (tools : Toolchain σ) :
    tools.overheard.Mimics Prod.fst tools := fun _ _ _ => rfl

/-- The world in which nothing has been heard yet. -/
def World.listening (w : World σ) : World (σ × List (List (Channel × Text))) :=
  { machine := w.machine, memory := (w.memory, []), terminal := w.terminal
    metrics := w.metrics, spans := w.spans, issued := w.issued }

/-- A toolchain that leaves a location as it is. -/
def Toolchain.Spares (tools : Toolchain σ) (x : Location) : Prop :=
  ∀ cmd memory m, (tools cmd memory m).machine.disk.node? x = m.disk.node? x

/-- The part of a log that a stage makes with what its command wrote. -/
def LogPart.ofStage (p : Stage × List (Channel × Text)) : LogPart :=
  ⟨some p.1.label, Output.ofPieces p.2, true⟩

/-! ### What changes and what does not -/

theorem CaseLog.Holds.of_location {l l' : CaseLog} {d : Disk} {text : Text} (h : l.Holds d text)
    (hl : l'.location = l.location) : l'.Holds d text := by
  unfold CaseLog.Holds at h ⊢
  rw [hl]
  exact h

/-- An open log does not mind what happens elsewhere. -/
theorem Kept.of_node {l : CaseLog} {d d' : Disk} {before : Output} {text : Text}
    (h : Kept l d before text) (hnode : d'.node? l.location = d.node? l.location) :
    Kept l d' before text := by
  refine ⟨h.opened, h.rests, ?_⟩
  unfold CaseLog.Holds
  rw [hnode]
  exact h.file

/-- Output is taken piece by piece. -/
theorem World.takeOutput_kept {w : World σ} {l : CaseLog} {before : Output} {text : Text}
    (h : Kept l w.disk before text) (pieces : List (Channel × Text)) :
    ∃ l', (w.takeOutput (some l) pieces).2 = some l' ∧ l'.location = l.location ∧
      (w.takeOutput (some l) pieces).1.memory = w.memory ∧
      Kept l' (w.takeOutput (some l) pieces).1.disk (before ++ Output.ofPieces pieces)
        (text ++ Output.written (Output.endedAfter before (Output.ofPieces pieces))) := by
  induction pieces generalizing w l before text with
  | nil =>
    refine ⟨l, rfl, rfl, rfl, ?_⟩
    simpa [Output.ofPieces, Output.endedAfter, Output.written, World.takeOutput] using h
  | cons p rest ih =>
    obtain ⟨c, piece⟩ := p
    have hlocation : (l.write w.disk c piece).1.location = l.location := by
      simpa using (l.write_logged w.disk c piece).location
    obtain ⟨l', hlog, hl', hmemory, hkept⟩ := ih
      (w := World.withDisk { w with terminal := w.terminal.write c piece }
        (l.write w.disk c piece).2.1) (h.write c piece)
    refine ⟨l', hlog, hl'.trans hlocation, hmemory, ?_⟩
    have hpieces : Output.ofPieces ((c, piece) :: rest) =
        Output.ofPiece c piece ++ Output.ofPieces rest := rfl
    rw [hpieces, Output.endedAfter_append, Output.written_append, ← List.append_assoc,
      ← List.append_assoc]
    exact hkept

namespace Course

variable (tools : Toolchain σ) {w : World (σ × List (List (Channel × Text)))}

/-- A stage that is performed ends the part before it, and begins one with the output of its
    command. -/
theorem perform_kept (c : Course) (case : Case) (s : Stage) {l : CaseLog} {before : Output}
    {text : Text} (h : Kept l w.disk before text) (hspares : tools.Spares l.location) :
    ∃ writes l', (c.perform tools.overheard case s w (some l)).2.2 = some l' ∧
      l'.location = l.location ∧
      (c.perform tools.overheard case s w (some l)).2.1.memory.2 = w.memory.2 ++ [writes] ∧
      (c.perform tools.overheard case s w (some l)).2.1.issued =
        w.issued ++ [c.issuedCommand case true s] ∧
      Kept l' (c.perform tools.overheard case s w (some l)).2.1.disk (Output.ofPieces writes)
        (text ++ Output.written before.cutOff ++ CaseLog.heading s.label ++
          Output.written (Output.ofPieces writes).ended) := by
  have hlocation : (l.beginSection w.disk s.label).1.location = l.location := by
    simpa using (l.beginSection_logged w.disk s.label).location
  -- The heading is on the disk on which the toolchain acts, and the toolchain spares the file.
  generalize hcmd : c.issuedCommand case true s = cmd
  generalize hw : w.withDisk (l.beginSection w.disk s.label).2.1 = w₁
  have hmachine : w₁.machine.disk = (l.beginSection w.disk s.label).2.1 := by rw [← hw]; rfl
  have hsame : (tools cmd w₁.memory.1 w₁.machine).machine.disk.node?
      (l.beginSection w.disk s.label).1.location =
      (l.beginSection w.disk s.label).2.1.node? (l.beginSection w.disk s.label).1.location := by
    rw [hlocation, hspares cmd w₁.memory.1 w₁.machine, hmachine]
  have hkept := (h.beginSection s.label).of_node hsame
  obtain ⟨l', hlog, hl', hmemory, hkept'⟩ := World.takeOutput_kept
    (w := { w₁ with
      machine := (tools cmd w₁.memory.1 w₁.machine).machine
      memory := (tools.overheard cmd w₁.memory w₁.machine).memory
      issued := w₁.issued ++ [cmd] }) hkept (tools cmd w₁.memory.1 w₁.machine).writes
  obtain ⟨x, hx⟩ : ∃ x, w₁.issue tools.overheard
      (some (l.beginSection w.disk s.label).1) cmd = x := ⟨_, rfl⟩
  have hperform : c.perform tools.overheard case s w (some l) =
      (performedRecord s cmd x.1, x.2.1.ended (performedSpan case (performedRecord s cmd x.1)),
        x.2.2) := by
    subst hw hcmd
    exact c.perform_of_issue hx
  have hissued : w₁.issued = w.issued := by
    subst hw
    rfl
  refine ⟨(tools cmd w₁.memory.1 w₁.machine).writes, l', ?_, hl'.trans hlocation, ?_, ?_, ?_⟩
  · rw [hperform, ← hx]
    exact hlog
  · rw [hperform, ← hx]
    have hnotes := congrArg Prod.snd hmemory
    subst hw
    exact hnotes
  · rw [hperform, ← hx]
    show (w₁.issue tools.overheard _ cmd).2.1.issued = _
    rw [World.issued_issue, hissued]
  · rw [hperform, ← hx]
    exact hkept'

/-- Stages leave their parts in the log one after the other. The last one is complete when the
    log has been closed. -/
theorem runStages_heard (c : Course) (case : Case) (stages : List Stage) {l : CaseLog}
    {before : Output} {text : Text} (h : Kept l w.disk before text)
    (hspares : tools.Spares l.location) :
    ∃ heard,
      (c.runStages tools.overheard case stages w (some l)).2.1.memory.2 = w.memory.2 ++ heard ∧
      heard.length ≤ stages.length ∧
      (c.runStages tools.overheard case stages w (some l)).2.1.issued =
        w.issued ++ (stages.take heard.length).map (c.issuedCommand case true) ∧
      l.Holds (closeLog (c.runStages tools.overheard case stages w (some l)).2.1
          (c.runStages tools.overheard case stages w (some l)).2.2).disk
        (text ++ Output.written before.cutOff ++
          ((stages.zip heard).map LogPart.ofStage).flatMap LogPart.text) := by
  -- Closing a log that has heard nothing more.
  have hclosed : ∀ {w : World (σ × List (List (Channel × Text)))} {l : CaseLog} {before : Output}
      {text : Text}, Kept l w.disk before text →
      l.Holds (closeLog w (some l)).disk (text ++ Output.written before.cutOff) := by
    intro w l before text h
    refine h.close.of_location ?_
    simpa using (l.close_logged w.disk).location.symm
  induction stages generalizing w l before text with
  | nil =>
    exact ⟨[], by simp [runStages], by simp, by simp [runStages],
      by simpa [runStages] using hclosed h⟩
  | cons s rest ih =>
    cases hh : c.hindrance? case s w.machine with
    | some reason =>
      -- A stage that is hindered leaves no trace.
      have hstage : c.runStage tools.overheard case s w (some l) =
          (hinderedRecord s reason.failure, w.ended (hinderedSpan case s reason), some l) := by
        unfold runStage
        rw [hh]
      have hend := hclosed (w := (w.ended (hinderedSpan case s reason)).measured fun m =>
        m.recordStage s false (hinderedRecord s reason.failure).duration) h
      simp only [runStages, hstage, passed_hinderedRecord, if_neg Bool.false_ne_true]
      exact ⟨[], by simp [World.measured, World.ended], by simp, by simp, by simpa using hend⟩
    | none =>
      have hstage : c.runStage tools.overheard case s w (some l) =
          c.perform tools.overheard case s w (some l) := by
        unfold runStage
        rw [hh]
      obtain ⟨writes, l', hlog, hl', hmemory, hissued, hkept⟩ :=
        c.perform_kept tools case s h hspares
      simp only [runStages, hstage]
      generalize c.perform tools.overheard case s w (some l) = performed
        at hlog hmemory hissued hkept ⊢
      obtain ⟨r, w₁, log⟩ := performed
      obtain rfl : log = some l' := hlog
      dsimp only at hmemory hissued hkept ⊢
      have hpart : ∀ t : Text, text ++ Output.written before.cutOff ++
          CaseLog.heading s.label ++ Output.written (Output.ofPieces writes).ended ++
          Output.written (Output.ofPieces writes).cutOff ++ t =
          text ++ Output.written before.cutOff ++
            ((LogPart.ofStage (s, writes)).text ++ t) := by
        intro t
        simp [LogPart.text, LogPart.head, LogPart.lines, LogPart.ofStage, Output.written_append]
      split
      · obtain ⟨heard, hm, hlength, hi, hholds⟩ := ih
          (w := w₁.measured fun m => m.recordStage s r.passed r.duration) hkept (hl' ▸ hspares)
        refine ⟨writes :: heard, ?_, by simpa using hlength, ?_, ?_⟩
        · rw [List.append_cons, ← hmemory]
          exact hm
        · rw [List.length_cons, List.take_succ_cons, List.map_cons, List.append_cons, ← hissued]
          exact hi
        · rw [List.zip_cons_cons, List.map_cons, List.flatMap_cons, ← hpart]
          exact hholds.of_location hl'.symm
      · refine ⟨[writes], hmemory, by simp, by simpa using hissued, ?_⟩
        have hend := hclosed (w := w₁.measured fun m => m.recordStage s r.passed r.duration) hkept
        rw [List.zip_cons_cons, List.map_cons, List.flatMap_cons, ← hpart]
        simpa using hend.of_location hl'.symm

/-- The log of a case holds a part for each stage that issued a command, in order. -/
theorem run_heard (c : Course) {store : LogStore} (hlogs : c.logs = some store.source)
    {tools : Toolchain σ} {id : Text} {case : Case} {w : World σ} {d d' : Disk} {l : CaseLog}
    (hclean : (c.artifacts case).clean w.disk = (d, none))
    (hopen : CaseLog.start d store id case = (d', .ok l)) (hspares : tools.Spares l.location) :
    (c.run tools.overheard id case w.listening).2.memory.2.length ≤ Stage.all.length ∧
    (c.run tools.overheard id case w.listening).2.issued =
      w.issued ++ (Stage.all.take (c.run tools.overheard id case w.listening).2.memory.2.length).map
        (c.issuedCommand case true) ∧
    l.Holds (c.run tools.overheard id case w.listening).2.disk
      (((Stage.all.zip (c.run tools.overheard id case w.listening).2.memory.2).map
        LogPart.ofStage).flatMap LogPart.text) := by
  have hopened : c.openLog id case (w.listening.withDisk d) =
      (w.listening.withDisk d', some l) := by
    unfold openLog
    rw [hlogs]
    have hstart : store.source id case (w.listening.withDisk d).disk = (d', .ok l) := hopen
    dsimp only
    rw [hstart]
    rfl
  obtain ⟨heard, hmemory, hlength, hissued, hholds⟩ := c.runStages_heard tools case
    Stage.all (w := w.listening.withDisk d') (kept_of_start hopen) hspares
  have hrun := c.run_cleared tools.overheard id (w := w.listening) hclean rfl
  rw [hopened] at hrun
  have hheard : (c.run tools.overheard id case w.listening).2.memory.2 = heard := by
    rw [hrun, memory_finish, memory_closeLog, hmemory]
    rfl
  rw [hheard]
  refine ⟨hlength, ?_, ?_⟩
  · rw [hrun, issued_finish, issued_closeLog, hissued]
    rfl
  · rw [hrun]
    have hnothing : Output.written (Output.cutOff []) = [] := rfl
    rw [hnothing, List.nil_append, List.nil_append] at hholds
    exact hholds

end Course

end Gauntlet
