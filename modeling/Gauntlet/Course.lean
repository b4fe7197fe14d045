import Gauntlet.Artifacts
import Gauntlet.CaseResult
import Gauntlet.World

/-! # The course of a case

  A case is taken through the stages in order, and its course ends at the first
  stage that fails:

  - the launcher interprets the source and emits assembly;
  - the linker makes a binary of the assembly, which must be there;
  - the binary is executed.

  Before the first stage the artifacts of earlier runs are removed. A stage is first
  checked, which fails if the run has been cancelled or the assembly is missing, and
  then performed by issuing one command.
-/

namespace Gauntlet

abbrev LogSource := (run : Text) → Case → Disk → Disk × Except Failure CaseLog

def LogStore.source (s : LogStore) : LogSource := fun run c d => CaseLog.start d s run c

/-- The same logs, with every file closed right after it is opened. -/
def LogSource.damaged (logs : LogSource) : LogSource := fun run c d =>
  match logs run c d with
  | (d, .ok l) => (d, .ok l.damage)
  | (d, .error f) => (d, .error f)

/-- What is needed to take cases through the stages. -/
structure CoursePlan where
  /-- The directory of every command; empty means the working directory. -/
  workDir : Text := []
  scratchDir : Text := []
  launcher : Text := []
  launcherArgs : List Text := []
  /-- The linker and its leading arguments; empty means the default linker. -/
  linker : List Text := []
  /-- The time limit of a stage; zero or less means the default. -/
  timeout : Duration := Duration.zero
  deriving DecidableEq, Repr, Inhabited

/-- A plan with all names resolved. -/
structure Course where
  workDir : Text
  scratchDir : Text
  launcher : Text
  launcherArgs : List Text
  linker : Text
  linkerArgs : List Text
  timeout : Duration
  /-- Where the logs go, if they are kept. -/
  logs : Option LogSource := none

namespace Course

/-! ### Resolving a plan -/

/-- The linker that is used if none is given. -/
def defaultLinker : Text := "gcc"

/-- The time limit that is used if none is given. -/
def defaultTimeout : Duration := Duration.ofSeconds 3

/-- A program name as seen from a directory: a name without a slash is left for the
    search path. -/
def executable (dir name : Text) : Text :=
  if name.contains Path.slash then Path.anchor dir name else name

/-- The course of a plan whose work directory is known. -/
def ofPlanAt (p : CoursePlan) (workDir : Text) (logs : Option LogSource) : Course where
  workDir
  scratchDir := Path.anchor workDir p.scratchDir
  launcher := executable workDir p.launcher
  launcherArgs := p.launcherArgs
  linker := executable workDir (p.linker.headD defaultLinker)
  linkerArgs := p.linker.drop 1
  timeout := if p.timeout.isPositive then p.timeout else defaultTimeout
  logs

def ofPlan (d : Disk) (p : CoursePlan) (logs : Option LogSource) : Except Failure Course :=
  if p.launcher = [] then .error (.plain "launcher is required")
  else if p.scratchDir = [] then .error (.plain "scratch directory is required")
  else if p.workDir ≠ [] then .ok (ofPlanAt p p.workDir logs)
  else match d.workingDir with
    | .ok wd => .ok (ofPlanAt p wd logs)
    | .error f => .error (.wrap "failed to determine working directory" (some f))

/-! ### Commands -/

def artifacts (c : Course) (case : Case) : Artifacts := Artifacts.ofCase c.scratchDir case

def command (c : Course) (program : Text) (args : List Text) : Command :=
  { program, args, dir := c.workDir, timeout := c.timeout }

def stageCommand (c : Course) (case : Case) (s : Stage) : Command :=
  let a := c.artifacts case
  if s = .interpret then c.command c.launcher (c.launcherArgs ++ [case.source])
  else if s = .link then c.command c.linker (c.linkerArgs ++ [a.assembly, "-o", a.binary])
  else c.command a.binary []

/-! ### Stages -/

variable {σ : Type}

/-- The failure of a link stage without assembly. -/
def missingAssembly (p : Text) (e : OsError) : Failure :=
  .wrap ("assembly " ++ p ++ " was not produced") (some e.failure)

/-- Why a stage cannot be performed. -/
inductive Hindrance where
  | cancelled
  /-- What the stage needs is missing. -/
  | unmet (f : Failure)

def Hindrance.failure : Hindrance → Failure
  | cancelled => cancellation
  | unmet f => f

/-- Why a stage cannot be performed now, if it cannot. -/
def hindrance? (c : Course) (case : Case) (s : Stage) (m : Machine) : Option Hindrance :=
  if m.cancelled then some .cancelled
  else if s = .link then
    let p := (c.artifacts case).assembly
    match m.disk.stat p with
    | .ok _ => none
    | .error e => some (.unmet (missingAssembly p e))
  else none

def spanName (case : Case) : Text := "test " ++ case.name

def stageSpan (case : Case) (s : Stage) : Span :=
  { name := "stage " ++ s.name, parent := some (spanName case) }

/-- The record of a stage that was not performed. -/
def hinderedRecord (s : Stage) (f : Failure) : StageRecord :=
  { stage := s, exitCode := Ending.unknownCode, cause := some f }

/-- The span of a stage that was not performed. -/
def hinderedSpan (case : Case) (s : Stage) : Hindrance → Span
  | .cancelled => stageSpan case s
  | .unmet f => { stageSpan case s with problem := some f.message }

def performedRecord (s : Stage) (cmd : Command) (e : Ending) : StageRecord :=
  { stage := s, command := cmd.text, exitCode := e.exitCode, timedOut := e.timedOut,
    cause := e.cause, duration := e.duration }

def performedSpan (case : Case) (r : StageRecord) : Span :=
  { stageSpan case r.stage with
    problem := if r.passed then none else some r.detail
    attributes := [Datum.named "stage.command" (.text r.command),
      Datum.named "stage.exit_code" (.number r.exitCode),
      Datum.named "stage.timed_out" (.truth r.timedOut)] }

/-- Begins the section of a stage in the log; a failure of the log is passed over. -/
def beginSection (s : Stage) (w : World σ) : Option CaseLog → World σ × Option CaseLog
  | none => (w, none)
  | some l =>
    let (l, d, _) := l.beginSection w.disk s.label
    (w.withDisk d, some l)

/-- Performs a stage: issues its command under its own heading. -/
def perform (c : Course) (tools : Toolchain σ) (case : Case) (s : Stage) (w : World σ)
    (log : Option CaseLog) : StageRecord × World σ × Option CaseLog :=
  let (w, log) := beginSection s w log
  let cmd := { c.stageCommand case s with captured := log.isSome }
  let (ending, w, log) := w.issue tools log cmd
  let r := performedRecord s cmd ending
  (r, w.ended (performedSpan case r), log)

/-- Checks a stage and performs it if nothing hinders it. -/
def runStage (c : Course) (tools : Toolchain σ) (case : Case) (s : Stage) (w : World σ)
    (log : Option CaseLog) : StageRecord × World σ × Option CaseLog :=
  match c.hindrance? case s w.machine with
  | some h => (hinderedRecord s h.failure, w.ended (hinderedSpan case s h), log)
  | none => c.perform tools case s w log

def runStages (c : Course) (tools : Toolchain σ) (case : Case) :
    List Stage → World σ → Option CaseLog → List StageRecord × World σ × Option CaseLog
  | [], w, log => ([], w, log)
  | s :: rest, w, log =>
    let (r, w, log) := c.runStage tools case s w log
    let w := w.measured fun m => m.recordStage s r.passed r.duration
    if r.passed then
      let (rs, w, log) := c.runStages tools case rest w log
      (r :: rs, w, log)
    else ([r], w, log)

/-! ### Cases -/

/-- The verdict that the records of a course give: the stage of the last record
    failed, or all stages passed. -/
def verdictOf (records : List StageRecord) : Verdict :=
  match records.getLast? with
  | some r => if r.passed then .pass else .failedAt r.stage
  | none => .pass

def resultOf (case : Case) (records : List StageRecord) : CaseResult where
  case
  verdict := verdictOf records
  stages := records
  duration := records.foldl (fun d r => d + r.duration) Duration.zero

def caseSpan (r : CaseResult) : Span where
  name := spanName r.case
  problem := if r.verdict.passed then none else some r.verdict.text
  attributes := [Datum.named "test.source" (.text r.case.source),
    Datum.named "test.status" (.text r.status.word)]

/-- Counts the result of a case and ends its span. -/
def finish (r : CaseResult) (w : World σ) : CaseResult × World σ :=
  let w := w.measured fun m => m.recordCase r.status r.verdict.failedStage
  (r, w.ended (caseSpan r))

/-- Opens the log of a case, if logs are kept; without it the output goes to the
    terminal only. -/
def openLog (c : Course) (run : Text) (case : Case) (w : World σ) : World σ × Option CaseLog :=
  match c.logs with
  | none => (w, none)
  | some source =>
    match source run case w.disk with
    | (d, .ok l) => (w.withDisk d, some l)
    | (d, .error f) =>
      ((w.withDisk d).measured fun m => m.recordErrorDetails "test_log" (some f), none)

/-- Closes the log; a failure is passed over. -/
def closeLog (w : World σ) : Option CaseLog → World σ
  | none => w
  | some l => w.withDisk (l.close w.disk).2.1

/-- Takes a case through the stages. -/
def run (c : Course) (tools : Toolchain σ) (id : Text) (case : Case) (w : World σ) :
    CaseResult × World σ :=
  match (c.artifacts case).clean w.disk with
  | (d, some f) => finish (resultOf case [hinderedRecord .interpret f]) (w.withDisk d)
  | (d, none) =>
    let (w, log) := c.openLog id case (w.withDisk d)
    let (records, w, log) := c.runStages tools case Stage.all w log
    finish (resultOf case records) (closeLog w log)

end Course

end Gauntlet
