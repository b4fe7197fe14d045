import Gauntlet.Proofs.Leftovers
import Gauntlet.Proofs.StageLog

/-! # Logging changes nothing else

  A case is taken through the stages twice from one world, with logs and without. The two
  worlds stay `Alongside` each other: they are the same but for the area of the logs, the
  metrics, and whether commands have their output captured.

  - Headings, output and the close of a log keep to the area.
  - A toolchain that is `Aloof` does not look into the area, and does not care for where its
    output goes.
  - Before the linker is called, the assembly is looked for. This must not lead into the area
    either.

  So the results are the same (`logging_is_transparent`), and the log tells what was written.
-/

namespace Gauntlet

open Disk (AlikeBeyond)

variable {σ : Type} {area : Set Location}

/-- The command, whether its output is captured or not. -/
def Command.uncaptured (cmd : Command) : Command := { cmd with captured := false }

/-- A toolchain that is independent of an area of the disk, and of where its output goes. -/
structure Toolchain.Aloof (area : Set Location) (tools : Toolchain σ) : Prop where
  captured : ∀ cmd memory m, tools cmd memory m = tools cmd.uncaptured memory m
  area : ∀ cmd memory m m', AlikeBeyond area ∅ m.disk m'.disk → m.cancelled = m'.cancelled →
    (tools cmd memory m).ending = (tools cmd memory m').ending ∧
    (tools cmd memory m).writes = (tools cmd memory m').writes ∧
    (tools cmd memory m).memory = (tools cmd memory m').memory ∧
    (tools cmd memory m).machine.cancelled = (tools cmd memory m').machine.cancelled ∧
    AlikeBeyond area ∅ (tools cmd memory m).machine.disk (tools cmd memory m').machine.disk

/-- Worlds that are the same but for an area of the disk, the metrics, and what is captured. -/
structure World.Alongside (area : Set Location) (w w' : World σ) : Prop where
  disk : AlikeBeyond area ∅ w.disk w'.disk
  cancelled : w.machine.cancelled = w'.machine.cancelled
  memory : w.memory = w'.memory
  terminal : w.terminal = w'.terminal
  spans : w.spans = w'.spans
  issued : w.issued.map Command.uncaptured = w'.issued.map Command.uncaptured

/-- Logs whose files are in an area. -/
def Inside (area : Set Location) (log : Option CaseLog) : Prop := ∀ l ∈ log, l.location ∈ area

/-- What stages have come to in two worlds: the same records, in worlds alongside each other. -/
structure Abreast {α : Type} (area : Set Location) (x y : α × World σ × Option CaseLog) :
    Prop where
  records : x.1 = y.1
  worlds : World.Alongside area x.2.1 y.2.1
  inside : Inside area x.2.2
  inside' : Inside area y.2.2

namespace World

variable {w w' : World σ}

/-- Output goes to the terminal and to the log. -/
theorem takeOutput_eq (w : World σ) (log : Option CaseLog) (pieces : List (Channel × Text)) :
    (w.takeOutput log pieces).1 =
      World.withDisk { w with terminal := pieces.foldl (fun t p => t.write p.1 p.2) w.terminal }
        (w.takeOutput log pieces).1.disk := by
  obtain ⟨f, log', _, htake⟩ := takeOutput_adding (σ := σ) log pieces
  rw [htake w]
  rfl

namespace Alongside

theorem withDisk (h : Alongside area w w') {d d' : Disk} (hd : AlikeBeyond area ∅ d d') :
    Alongside area (w.withDisk d) (w'.withDisk d') :=
  ⟨hd, h.cancelled, h.memory, h.terminal, h.spans, h.issued⟩

theorem ended (h : Alongside area w w') (s : Span) : Alongside area (w.ended s) (w'.ended s) := by
  refine ⟨h.disk, h.cancelled, h.memory, h.terminal, ?_, h.issued⟩
  show w.spans ++ [s] = w'.spans ++ [s]
  rw [h.spans]

theorem measured (h : Alongside area w w') (f f' : Metrics → Metrics) :
    Alongside area (w.measured f) (w'.measured f') :=
  ⟨h.disk, h.cancelled, h.memory, h.terminal, h.spans, h.issued⟩

theorem takeOutput (h : Alongside area w w') {log log' : Option CaseLog} (hlog : Inside area log)
    (hlog' : Inside area log') (pieces : List (Channel × Text)) :
    Alongside area (w.takeOutput log pieces).1 (w'.takeOutput log' pieces).1 ∧
    Inside area (w.takeOutput log pieces).2 ∧ Inside area (w'.takeOutput log' pieces).2 := by
  obtain ⟨hdisk, hin⟩ := (w.takeOutput_logged log pieces).1.within hlog
  obtain ⟨hdisk', hin'⟩ := (w'.takeOutput_logged log' pieces).1.within hlog'
  refine ⟨?_, hin, hin'⟩
  rw [takeOutput_eq w, takeOutput_eq w']
  refine ⟨(hdisk.symm.trans h.disk).trans hdisk', h.cancelled, h.memory, ?_, h.spans, h.issued⟩
  show pieces.foldl _ w.terminal = pieces.foldl _ w'.terminal
  rw [h.terminal]

theorem issue {tools : Toolchain σ} (haloof : tools.Aloof area) (h : Alongside area w w')
    {log log' : Option CaseLog} (hlog : Inside area log) (hlog' : Inside area log')
    {cmd cmd' : Command} (hcmd : cmd.uncaptured = cmd'.uncaptured) :
    Abreast area (w.issue tools log cmd) (w'.issue tools log' cmd') := by
  obtain ⟨hending, hwrites, hmemory, hcancelled, hdisk⟩ :=
    haloof.area cmd w.memory w.machine w'.machine h.disk h.cancelled
  -- The other command differs in what is captured only, and the memory is the same.
  have hreaction : tools cmd w.memory w'.machine = tools cmd' w'.memory w'.machine := by
    rw [haloof.captured cmd, hcmd, ← haloof.captured cmd', h.memory]
  rw [hreaction] at hending hwrites hmemory hcancelled hdisk
  have hnext : Alongside area
      { w with
        machine := (tools cmd w.memory w.machine).machine
        memory := (tools cmd w.memory w.machine).memory
        issued := w.issued ++ [cmd] }
      { w' with
        machine := (tools cmd' w'.memory w'.machine).machine
        memory := (tools cmd' w'.memory w'.machine).memory
        issued := w'.issued ++ [cmd'] } := by
    refine ⟨hdisk, hcancelled, hmemory, h.terminal, h.spans, ?_⟩
    rw [List.map_append, List.map_append, h.issued, List.map_singleton, List.map_singleton, hcmd]
  obtain ⟨hworlds, hin, hin'⟩ :=
    hnext.takeOutput hlog hlog' (tools cmd' w'.memory w'.machine).writes
  unfold World.issue
  dsimp only
  rw [hwrites]
  exact ⟨hending, hworlds, hin, hin'⟩

end Alongside

end World

/-! ### Stages -/

namespace Course

variable (c : Course) {tools : Toolchain σ} (case : Case) {w w' : World σ}
  {log log' : Option CaseLog}

/-- Headings keep to the area. -/
theorem beginSection_alongside (s : Stage) (h : World.Alongside area w w')
    (hlog : Inside area log) (hlog' : Inside area log') :
    World.Alongside area (beginSection s w log).1 (beginSection s w' log').1 ∧
    Inside area (beginSection s w log).2 ∧ Inside area (beginSection s w' log').2 := by
  obtain ⟨d, hlogged, hw⟩ := beginSection_logged s w log
  obtain ⟨d', hlogged', hw'⟩ := beginSection_logged s w' log'
  obtain ⟨hdisk, hin⟩ := hlogged.within hlog
  obtain ⟨hdisk', hin'⟩ := hlogged'.within hlog'
  rw [hw, hw']
  exact ⟨h.withDisk ((hdisk.symm.trans h.disk).trans hdisk'), hin, hin'⟩

/-- A stage that is hindered in both worlds, or in neither, comes to the same. -/
theorem runStage_abreast (haloof : tools.Aloof area) {s : Stage} (h : World.Alongside area w w')
    (hlog : Inside area log) (hlog' : Inside area log')
    (hsame : c.hindrance? case s w.machine = c.hindrance? case s w'.machine) :
    Abreast area (c.runStage tools case s w log) (c.runStage tools case s w' log') := by
  unfold runStage
  rw [hsame]
  cases c.hindrance? case s w'.machine with
  | some reason => exact ⟨rfl, h.ended _, hlog, hlog'⟩
  | none =>
    obtain ⟨hworlds, hin, hin'⟩ := beginSection_alongside s h hlog hlog'
    have hissue := hworlds.issue haloof hin hin'
      (show (c.issuedCommand case log.isSome s).uncaptured =
        (c.issuedCommand case log'.isSome s).uncaptured from rfl)
    rw [c.perform_of_issue rfl, c.perform_of_issue rfl]
    -- The record and the span tell the command and how it ended, not what was captured.
    have hrecord : ∀ e, performedRecord s (c.issuedCommand case log.isSome s) e =
        performedRecord s (c.issuedCommand case log'.isSome s) e := fun _ => rfl
    rw [hissue.records, hrecord]
    exact ⟨rfl, hissue.worlds.ended _, hissue.inside, hissue.inside'⟩

/-- Stages come to the same if the first of them does, and those that follow it do. -/
theorem runStages_abreast {s : Stage} {rest : List Stage}
    (hstage : Abreast area (c.runStage tools case s w log) (c.runStage tools case s w' log'))
    (hrest : ∀ f, (c.runStage tools case s w log).1.passed = true →
      Abreast area
        (c.runStages tools case rest ((c.runStage tools case s w log).2.1.measured f)
          (c.runStage tools case s w log).2.2)
        (c.runStages tools case rest ((c.runStage tools case s w' log').2.1.measured f)
          (c.runStage tools case s w' log').2.2)) :
    Abreast area (c.runStages tools case (s :: rest) w log)
      (c.runStages tools case (s :: rest) w' log') := by
  simp only [runStages]
  rw [← hstage.records]
  generalize (fun m : Metrics => m.recordStage s (c.runStage tools case s w log).1.passed
    (c.runStage tools case s w log).1.duration) = f
  by_cases hpassed : (c.runStage tools case s w log).1.passed = true
  · have hall := hrest f hpassed
    rw [if_pos hpassed, if_pos hpassed]
    refine ⟨?_, hall.worlds, hall.inside, hall.inside'⟩
    show _ :: _ = _ :: _
    rw [hall.records]
  · rw [if_neg hpassed, if_neg hpassed]
    exact ⟨rfl, hstage.worlds.measured f f, hstage.inside, hstage.inside'⟩

/-- Only the link stage looks at the disk before it is performed. -/
theorem hindrance?_congr {s : Stage} {m m' : Machine} (hcancelled : m.cancelled = m'.cancelled)
    (hstat : s = .link → m.disk.stat (c.artifacts case).assembly =
      m'.disk.stat (c.artifacts case).assembly) :
    c.hindrance? case s m = c.hindrance? case s m' := by
  unfold hindrance?
  rw [hcancelled]
  by_cases hs : s = .link
  · simp only [hstat hs]
  · simp only [if_neg hs]

/-- Without a log, a stage that passes leaves the disk as its command leaves it. -/
theorem disk_runStage_none {s : Stage}
    (hpassed : (c.runStage tools case s w none).1.passed = true) :
    (c.runStage tools case s w none).2.1.disk =
      (tools (c.issuedCommand case false s) w.memory w.machine).machine.disk := by
  unfold runStage at hpassed ⊢
  split at hpassed
  · rw [passed_hinderedRecord] at hpassed
    exact absurd hpassed Bool.false_ne_true
  · rw [c.perform_of_issue rfl]
    exact World.disk_issue_none w tools (c.issuedCommand case false s)

/-- Stages other than the link stage come to the same in any two worlds alongside each other. -/
theorem runStages_abreast_of_ne_link (haloof : tools.Aloof area) {stages : List Stage}
    (hstages : ∀ s ∈ stages, s ≠ .link) (h : World.Alongside area w w') (hlog : Inside area log)
    (hlog' : Inside area log') :
    Abreast area (c.runStages tools case stages w log)
      (c.runStages tools case stages w' log') := by
  induction stages generalizing w w' log log' with
  | nil => exact ⟨rfl, h, hlog, hlog'⟩
  | cons s rest ih =>
    have hstage := c.runStage_abreast case haloof h hlog hlog'
      (c.hindrance?_congr case h.cancelled fun hs => absurd hs (hstages s List.mem_cons_self))
    refine c.runStages_abreast case hstage fun f _ => ?_
    exact ih (fun s' hs' => hstages s' (List.mem_cons_of_mem s hs')) (hstage.worlds.measured f f)
      hstage.inside hstage.inside'

/-- All stages come to the same with a log as without, if the assembly that the launcher leaves
    does not lead into the area. -/
theorem stages_abreast (haloof : tools.Aloof area) (h : World.Alongside area w w')
    (hlog' : Inside area log')
    (hway : ∀ x ∈ (tools (c.issuedCommand case false .interpret) w.memory
      w.machine).machine.disk.way true (c.artifacts case).assembly, x ∉ area) :
    Abreast area (c.runStages tools case Stage.all w none)
      (c.runStages tools case Stage.all w' log') := by
  have hall : Stage.all = [.interpret, .link, .execute] := rfl
  have hinterpret : Abreast area (c.runStage tools case .interpret w none)
      (c.runStage tools case .interpret w' log') :=
    c.runStage_abreast case haloof h (by simp [Inside]) hlog'
      (c.hindrance?_congr case h.cancelled fun hs => absurd hs (by decide))
  rw [hall]
  refine c.runStages_abreast case hinterpret fun f hpassed => ?_
  -- Here the assembly is looked for. In the world without a log the disk is as the launcher
  -- has left it.
  rw [← c.disk_runStage_none case hpassed] at hway
  generalize c.runStage tools case .interpret w none = x at hinterpret hway ⊢
  generalize c.runStage tools case .interpret w' log' = y at hinterpret ⊢
  have hworlds := hinterpret.worlds.measured f f
  have hlink := c.runStage_abreast case (s := .link) haloof hworlds hinterpret.inside
    hinterpret.inside'
    (c.hindrance?_congr case hworlds.cancelled fun _ => Disk.stat_eq_of_way hworlds.disk hway)
  refine c.runStages_abreast case hlink fun g _ => ?_
  exact c.runStages_abreast_of_ne_link case haloof (by decide) (hlink.worlds.measured g g)
    hlink.inside
    hlink.inside'

/-! ### Cases -/

theorem runStages_logs (c : Course) (logs : Option LogSource) (tools : Toolchain σ) (case : Case)
    (stages : List Stage) (w : World σ) (log : Option CaseLog) :
    ({ c with logs } : Course).runStages tools case stages w log =
      c.runStages tools case stages w log := by
  induction stages generalizing w log with
  | nil => rfl
  | cons s rest ih =>
    simp only [runStages, ih]
    rfl

theorem closeLog_alongside (h : World.Alongside area w w') (hlog : Inside area log)
    (hlog' : Inside area log') : World.Alongside area (closeLog w log) (closeLog w' log') := by
  have hclose : ∀ {w : World σ} {log : Option CaseLog}, Inside area log →
      AlikeBeyond area ∅ w.disk (closeLog w log).disk ∧
      closeLog w log = w.withDisk (closeLog w log).disk := by
    intro w log hlog
    cases log with
    | none => exact ⟨AlikeBeyond.refl _, rfl⟩
    | some l => exact ⟨((l.close_logged w.disk).within hlog).1, rfl⟩
  obtain ⟨hdisk, heq⟩ := hclose (w := w) hlog
  obtain ⟨hdisk', heq'⟩ := hclose (w := w') hlog'
  rw [heq, heq']
  exact h.withDisk ((hdisk.symm.trans h.disk).trans hdisk')

/-- Opening the log of a store leaves a world alongside the one without it. -/
theorem openLog_alongside {store : LogStore} (hlogs : c.logs = some store.source) {id : Text}
    {top : Location} (hwithin : store.Within id case top w.disk) :
    World.Alongside {x | top <+: x} w (c.openLog id case w).1 ∧
    Inside {x | top <+: x} (c.openLog id case w).2 := by
  obtain ⟨hdisk, hlocation⟩ := hwithin.start
  unfold openLog
  rw [hlogs]
  dsimp only [LogStore.source]
  generalize CaseLog.start w.disk store id case = opened at hdisk hlocation ⊢
  obtain ⟨d, _ | l⟩ := opened
  · exact ⟨⟨hdisk, rfl, rfl, rfl, rfl, rfl⟩, by simp [Inside]⟩
  · refine ⟨⟨hdisk, rfl, rfl, rfl, rfl, rfl⟩, ?_⟩
    rintro l' ⟨⟩
    exact hlocation l rfl

theorem finish_alongside (r : CaseResult) (h : World.Alongside area w w') :
    World.Alongside area (finish r w).2 (finish r w').2 :=
  (h.measured _ _).ended _

/-- A case comes to the same with the logs of a store as without logs. -/
theorem run_alongside {store : LogStore} {id : Text} {top : Location}
    (haloof : tools.Aloof {x | top <+: x})
    (hwithin : ∀ d, (c.artifacts case).clean w.disk = (d, none) → store.Within id case top d)
    (hway : ∀ d, (c.artifacts case).clean w.disk = (d, none) →
      ∀ x ∈ (tools (c.issuedCommand case false .interpret) w.memory
        (w.withDisk d).machine).machine.disk.way true (c.artifacts case).assembly, ¬ top <+: x) :
    (({ c with logs := none } : Course).run tools id case w).1 =
      (({ c with logs := some store.source } : Course).run tools id case w).1 ∧
    World.Alongside {x | top <+: x} (({ c with logs := none } : Course).run tools id case w).2
      (({ c with logs := some store.source } : Course).run tools id case w).2 := by
  cases hclean : (c.artifacts case).clean w.disk with
  | mk d failed =>
    cases failed with
    | some f =>
      -- No log is opened.
      rw [run_stuck { c with logs := none } tools id hclean,
        run_stuck { c with logs := some store.source } tools id hclean]
      exact ⟨rfl, AlikeBeyond.refl _, rfl, rfl, rfl, rfl, rfl⟩
    | none =>
      obtain ⟨hopened, hinside⟩ := openLog_alongside { c with logs := some store.source } case
        (w := w.withDisk d) rfl (hwithin d hclean)
      have hstages := c.stages_abreast case haloof hopened hinside (hway d hclean)
      rw [run_cleared { c with logs := none } tools id hclean
          (runStages_logs c none tools case _ _ _),
        run_cleared { c with logs := some store.source } tools id hclean
          (runStages_logs c (some store.source) tools case _ _ _)]
      have hclosed := closeLog_alongside hstages.worlds hstages.inside hstages.inside'
      refine ⟨?_, ?_⟩
      · exact congrArg (resultOf case) hstages.records
      · have hfinish := finish_alongside (resultOf case
          (c.runStages tools case Stage.all (w.withDisk d) none).1) hclosed
        nth_rewrite 2 [hstages.records] at hfinish
        exact hfinish

/-- **Logging is transparent.** A case is run with the logs of a store and without logs.

    - Let the toolchain be independent of a directory and of where its output goes, the log lead
      below this directory, and the assembly that the launcher leaves not lead there. Then the
      result is the same with logs and without, whether the log can be opened or not, and so is
      everything outside of the directory; the issued commands differ in what is captured only.
    - If the log can be opened, and the toolchain leaves its file alone, the file holds one part
      for each command that was issued, in order: the heading of its stage, and the lines of
      what this command wrote. What was written is told by a toolchain that notes it and does
      the same otherwise. -/
theorem logging_is_transparent (c : Course) (tools : Toolchain σ) (store : LogStore) (id : Text)
    (case : Case) (w : World σ) :
    let bare := ({ c with logs := none } : Course).run tools id case w
    let logged := ({ c with logs := some store.source } : Course).run tools id case w
    (∀ top : Location, tools.Aloof {x | top <+: x} →
      (∀ d, (c.artifacts case).clean w.disk = (d, none) → store.Within id case top d) →
      (∀ d, (c.artifacts case).clean w.disk = (d, none) →
        ∀ x ∈ (tools (c.issuedCommand case false .interpret) w.memory
          (w.withDisk d).machine).machine.disk.way true (c.artifacts case).assembly, ¬ top <+: x) →
      bare.1 = logged.1 ∧ World.Alongside {x | top <+: x} bare.2 logged.2) ∧
    ∀ d d' l, (c.artifacts case).clean w.disk = (d, none) →
      CaseLog.start d store id case = (d', .ok l) → tools.Spares l.location →
      let overheard := ({ c with logs := some store.source } : Course).run tools.overheard id case
        w.listening
      let heard := overheard.2.memory.2
      logged = (overheard.1, overheard.2.seen Prod.fst) ∧
      heard.length ≤ Stage.all.length ∧
      logged.2.issued =
        w.issued ++ (Stage.all.take heard.length).map (c.issuedCommand case true) ∧
      l.Holds logged.2.disk
        (((Stage.all.zip heard).map LogPart.ofStage).flatMap LogPart.text) := by
  intro bare logged
  refine ⟨fun top => c.run_alongside case, ?_⟩
  intro d d' l hclean hopen hspares overheard heard
  have hseen : logged = (overheard.1, overheard.2.seen Prod.fst) :=
    run_seen tools.overheard_mimics _ id case w.listening
  obtain ⟨hlength, hissued, hholds⟩ := run_heard { c with logs := some store.source } rfl hclean
    hopen hspares
  rw [hseen]
  exact ⟨rfl, hlength, hissued, hholds⟩

end Course

/-! ### Samples -/

namespace Sample

/-- The scratch directory `/t` and the directory `/g` of the logs. -/
def homed : Disk := (disk 0o755).put [("g" : Text)] (.dir 0o755 ⟨0, 0⟩)

/-- The place of the case's log. -/
def logFile : Location := [("g" : Text), ("testrun-r" : Text), ("a.log" : Text)]

/-- A toolchain that writes, and whose launcher leaves something at a place. -/
def leaving (writes : List (Channel × Text)) (change : Disk → Disk) : Toolchain Unit :=
  fun cmd _ m =>
    { ending := {}, writes := if cmd.program = course.launcher then writes else [(.out, "done")]
      machine := if cmd.program = course.launcher then { m with disk := change m.disk } else m
      memory := () }

theorem leaving_aloof {top : Location} (writes : List (Channel × Text)) {change : Disk → Disk}
    (hchange : ∀ d d', AlikeBeyond {x | top <+: x} ∅ d d' →
      AlikeBeyond {x | top <+: x} ∅ (change d) (change d')) :
    (leaving writes change).Aloof {x | top <+: x} := by
  refine ⟨fun _ _ _ => rfl, ?_⟩
  rintro cmd ⟨⟩ ⟨d, b⟩ ⟨d', b'⟩ hd hb
  obtain rfl : b = b' := hb
  unfold leaving
  refine ⟨rfl, rfl, rfl, ?_⟩
  dsimp only
  by_cases hcmd : cmd.program = course.launcher
  · rw [if_pos hcmd, if_pos hcmd]
    exact ⟨rfl, hchange d d' hd⟩
  · rw [if_neg hcmd, if_neg hcmd]
    exact ⟨rfl, hd⟩

theorem leaving_spares (writes : List (Channel × Text)) {x y : Location} {n : Node} (h : y ≠ x) :
    (leaving writes fun d => d.put x n).Spares y := by
  intro cmd memory m
  unfold leaving
  dsimp only
  split
  · show (m.disk.put x n).node? y = m.disk.node? y
    rw [Disk.node?_put, if_neg h]
  · rfl

/-- A toolchain whose launcher leaves lines open on both streams, and the assembly. -/
def chatty : Toolchain Unit :=
  leaving [(.out, "one\nt"), (.err, "\x1b[31mred"), (.out, "wo")] fun d => d.put assembly stale

/-- What the log tells of it. -/
def chattyLog : Text :=
  "=== Interpreter ===\none\ntwo\nred\n" ++ "=== Linking ===\ndone\n" ++
    "=== Running compiled binary ===\ndone\n"

theorem chatty_aloof : chatty.Aloof {x | [("g" : Text)] <+: x} :=
  leaving_aloof _ fun _ _ h => h.put_both _ _

theorem logging_is_transparent_chatty :
    ((({ course with logs := none } : Course).run chatty "r" case (world homed)).1 =
        (course.run chatty "r" case (world homed)).1 ∧
      World.Alongside {x | [("g" : Text)] <+: x}
        (({ course with logs := none } : Course).run chatty "r" case (world homed)).2
        (course.run chatty "r" case (world homed)).2) ∧
    ∃ l : CaseLog, l.location = logFile ∧
      l.Holds (course.run chatty "r" case (world homed)).2.disk chattyLog := by
  have hcleared : ((course.artifacts case).clean homed).2.isNone = true := by decide +kernel
  have hwithin : LogStore.Within ⟨"/g"⟩ "r" case [("g" : Text)]
      ((course.artifacts case).clean homed).1 := by decide +kernel
  have hway : ∀ x ∈ (chatty (course.issuedCommand case false .interpret) ()
      ((world homed).withDisk ((course.artifacts case).clean homed).1).machine).machine.disk.way
        true (course.artifacts case).assembly, ¬ [("g" : Text)] <+: x := by decide +kernel
  have hopened : (CaseLog.start ((course.artifacts case).clean homed).1 ⟨"/g"⟩ "r"
      case).2.toOption.map CaseLog.location = some logFile := by decide +kernel
  have htext : ((Stage.all.zip (course.run chatty.overheard "r" case
      (world homed).listening).2.memory.2).map LogPart.ofStage).flatMap LogPart.text =
      chattyLog := by decide +kernel
  cases hclean : (course.artifacts case).clean homed with
  | mk d failed =>
    rw [hclean] at hcleared hwithin hway hopened
    obtain rfl : failed = none := by simpa using hcleared
    obtain ⟨hsame, hlog⟩ := Course.logging_is_transparent course chatty ⟨"/g"⟩ "r" case
      (world homed)
    have hcleaned : ∀ e, (course.artifacts case).clean homed = (e, none) → d = e :=
      fun e he => congrArg Prod.fst (hclean.symm.trans he)
    refine ⟨hsame [("g" : Text)] chatty_aloof (fun e he => hcleaned e he ▸ hwithin)
      (fun e he => hcleaned e he ▸ hway), ?_⟩
    cases hstart : CaseLog.start d ⟨"/g"⟩ "r" case with
    | mk d' r =>
      rw [hstart] at hopened
      cases r with
      | error f => simp [Except.toOption] at hopened
      | ok l =>
        have hlocation : l.location = logFile := by simpa [Except.toOption] using hopened
        refine ⟨l, hlocation, ?_⟩
        obtain ⟨_, _, _, hholds⟩ := hlog d d' l hclean hstart (by
          rw [hlocation]
          exact leaving_spares _ (by decide))
        rw [← htext]
        exact hholds

/-- A toolchain whose launcher makes the assembly a link to the log. -/
def linking : Toolchain Unit := leaving [] fun d => d.put assembly (.link "/g/testrun-r/a.log")

/-- A toolchain whose launcher removes the log. -/
def sweeping : Toolchain Unit := leaving [] fun d => d.drop logFile

/-- Logging does show if the log is a link to the assembly; if the launcher makes the assembly a
    link to the log; and if the directory that holds the logs has gone, and is made again. The
    log does not tell what was written if the launcher removes it. -/
theorem logging_can_show :
    (idle.Aloof {x | [("g" : Text)] <+: x} ∧
      (({ course with logs := none } : Course).run idle "r" case (world crossed)).1.verdict =
        .failedAt .link ∧
      (course.run idle "r" case (world crossed)).1.verdict = .pass) ∧
    (linking.Aloof {x | [("g" : Text)] <+: x} ∧
      (({ course with logs := none } : Course).run linking "r" case (world homed)).1.verdict =
        .failedAt .link ∧
      (course.run linking "r" case (world homed)).1.verdict = .pass) ∧
    (idle.Aloof {x | [("x" : Text), ("g" : Text)] <+: x} ∧
      (({ course with logs := none } : Course).run idle "r" case (world homed)).2.disk.node?
        [("x" : Text)] = none ∧
      ((({ course with logs := some (LogStore.source ⟨"/x/g"⟩) } : Course).run idle "r" case
        (world homed)).2.disk.node? [("x" : Text)]).isSome = true) ∧
    (sweeping.Aloof {x | [("g" : Text)] <+: x} ∧
      (CaseLog.start ((course.artifacts case).clean homed).1 ⟨"/g"⟩ "r"
        case).2.toOption.map CaseLog.location = some logFile ∧
      (course.run sweeping "r" case (world homed)).2.disk.node? logFile = none) := by
  have hidle : ∀ top : Location, idle.Aloof {x | top <+: x} := by
    intro top
    exact ⟨fun _ _ _ => rfl, fun _ _ _ _ hd hb => ⟨rfl, rfl, rfl, hb, hd⟩⟩
  have hlinking : linking.Aloof {x | [("g" : Text)] <+: x} :=
    leaving_aloof _ fun _ _ h => h.put_both _ _
  have hsweeping : sweeping.Aloof {x | [("g" : Text)] <+: x} := by
    refine leaving_aloof _ fun d d' h => ?_
    have hmem : logFile ∈ {x : Location | [("g" : Text)] <+: x} := ⟨_, rfl⟩
    exact ((AlikeBeyond.refl d).drop hmem).symm.trans (h.drop hmem)
  refine ⟨⟨hidle _, by decide +kernel, by decide +kernel⟩,
    ⟨hlinking, by decide +kernel, by decide +kernel⟩,
    ⟨hidle _, by decide +kernel, by decide +kernel⟩,
    hsweeping, by decide +kernel, by decide +kernel⟩

end Sample

end Gauntlet
