import Gauntlet.Build
import Gauntlet.Course
import Gauntlet.Report.File
import Gauntlet.Report.Table
import Gauntlet.Run.Conduct
import Gauntlet.Selection
import Gauntlet.Settings

/-! # The harness

  A harness takes a toolchain through complete passes. A pass has five phases, each
  of which begins only if the one before it succeeded:

  1. the toolchain is built,
  2. the cases are selected,
  3. the scratch directory is set up,
  4. the cases are run,
  5. the run is reported.

  The failure of a pass names its phase. Failing cases are no failure of a pass: they
  show in the result.
-/

namespace Gauntlet

/-- The parts of the harness that can fail. -/
inductive Phase where
  | config
  | setup
  | build
  | discovery
  | run
  | report
  | service
  deriving DecidableEq, Repr, Inhabited

namespace Phase

def word : Phase → Text
  | config => "config"
  | setup => "setup"
  | build => "build"
  | discovery => "discovery"
  | run => "run"
  | report => "report"
  | service => "service"

def failure (p : Phase) (cause : Failure) : Failure := .runtime p.word (some cause)

end Phase

/-- What the settings of a harness come down to. -/
structure Harness where
  settings : Settings
  build : BuildPlan
  course : Course
  /-- How many cases run at once. -/
  workers : Nat

/-- What a harness works with besides the machine. -/
structure Surroundings (σ : Type) where
  tools : Toolchain σ
  /-- The identifiers of runs. -/
  ids : Nat → Text
  /-- The time at which runs start. -/
  clock : ZonedInstant := ⟨⟨0, 0⟩, 0⟩

/-- What passes change. -/
structure Scene (σ : Type) where
  world : World σ
  streams : Report.Streams := {}
  /-- The last complete run. -/
  result : Option Run := none
  /-- How many runs have begun. -/
  runs : Nat := 0

namespace Harness

/-! ### Creation -/

def buildOf (s : Settings) : BuildPlan where
  command := s.buildCommand
  dir := s.projectDir
  timeout := s.buildTimeout
  archive := s.archive
  dest := s.projectDir

def courseOf (s : Settings) : CoursePlan where
  workDir := s.projectDir
  scratchDir := s.scratchDir
  launcher := s.launcher
  launcherArgs := s.launcherArgs
  linker := s.linker
  timeout := s.timeout

/-- The logs that settings ask for; their directory is made. -/
def logsOf (d : Disk) (s : Settings) : Disk × Except Failure (Option LogSource) :=
  if s.logDir = [] then (d, .ok none)
  else match LogStore.create d s.logDir with
    | (d, .ok store) => (d, .ok (some store.source))
    | (d, .error f) => (d, .error f)

/-- The harness of settings; only the directory of the logs is made. -/
def create (d : Disk) (s : Settings) : Disk × Except Failure Harness :=
  match (buildOf s).defect? with
  | some f => (d, .error (.wrap "failed to create build trigger" (some f)))
  | none =>
    match logsOf d s with
    | (d, .error f) => (d, .error (.wrap "failed to create test log sink" (some f)))
    | (d, .ok logs) =>
      match Course.ofPlan d (courseOf s) logs with
      | .error f => (d, .error (.wrap "failed to create pipeline" (some f)))
      | .ok course =>
        match Run.workers s.concurrency with
        | .error f => (d, .error (.wrap "failed to create test runner" (some f)))
        | .ok workers => (d, .ok { settings := s, build := buildOf s, course, workers })

/-- The refusal of a harness without settings. -/
def noSettings : Failure := .plain "config is required"

/-- The refusal of settings without a log for messages. -/
def noLog : Failure := .plain "config.Log is required"

/-- The harness of settings that may be missing, with a log that may be missing. -/
def createFrom (d : Disk) (s : Option Settings) (logged : Bool) : Disk × Except Failure Harness :=
  match s with
  | none => (d, .error noSettings)
  | some s => if logged then create d s else (d, .error noLog)

/-! ### Passes -/

variable {σ : Type}

/-- The scene with another world. -/
def atWorld (s : Scene σ) (w : World σ) : Scene σ := { s with world := w }

/-- How cases are carried out in a world. -/
def executor (h : Harness) (tools : Toolchain σ) : Run.Executor (World σ) where
  carryOut id c w :=
    let (r, w) := h.course.run tools id c w
    (some r, w)
  cancelled w := w.machine.cancelled

/-- Prints the result: the table, if it is wanted, and the summary. A stream that
    refuses is passed over. -/
def printed (h : Harness) (r : Run) (s : Report.Streams) : Report.Streams :=
  (Report.summary r (if h.settings.summaryTable then Report.table r s else s)).1

/-- Writes the report file, if one is wanted. -/
def reportFile (h : Harness) (r : Run) (w : World σ) : World σ × Option Failure :=
  if h.settings.reportFile = [] then (w, none)
  else match Report.writeFile w.disk h.settings.reportFile r with
    | (d, none) => (w.withDisk d, none)
    | (d, some f) =>
      ((w.withDisk d).measured fun m => m.recordErrorDetails "report" (some f), some f)

def counted (r : Run) (w : World σ) : World σ :=
  w.measured fun m => (m.recordRun r.id r.status r.total r.passed r.failed r.wallClock).1

/-- The last phase: reports the run. -/
def reported (h : Harness) (r : Run) (s : Scene σ) : Scene σ × Option Failure :=
  let s := { s with streams := h.printed r s.streams }
  match h.reportFile r s.world with
  | (w, some f) => (atWorld s w, some (Phase.report.failure f))
  | (w, none) => (atWorld s (counted r w), none)

/-- The fourth phase and what follows: runs the cases. -/
def conducted (h : Harness) (e : Surroundings σ) (cases : List Case) (s : Scene σ) :
    Scene σ × Option Failure :=
  let (result, w) :=
    Run.conduct (h.executor e.tools) h.workers (e.ids s.runs) e.clock cases s.world
  let s := { s with world := w, runs := s.runs + 1 }
  match result with
  | .error f => (s, some (Phase.run.failure f.failure))
  | .ok r => h.reported r { s with result := some r }

/-- The third phase and what follows: sets up the scratch directory. -/
def prepared (h : Harness) (e : Surroundings σ) (cases : List Case) (s : Scene σ) :
    Scene σ × Option Failure :=
  match s.world.disk.mkdirs h.course.scratchDir 0o755 with
  | (d, some f) =>
    (atWorld s (s.world.withDisk d),
      some (Phase.setup.failure (.wrap "failed to create scratch directory" (some f.failure))))
  | (d, none) => h.conducted e cases (atWorld s (s.world.withDisk d))

/-- The second phase and what follows: selects the cases. -/
def selected (h : Harness) (e : Surroundings σ) (s : Scene σ) : Scene σ × Option Failure :=
  let set := h.settings
  match Selection.select s.world.disk set.testsDir set.suffix set.pattern with
  | .error f =>
    (atWorld s (s.world.measured fun m => m.recordErrorDetails "discovery" (some f)),
      some (Phase.discovery.failure f))
  | .ok cases => h.prepared e cases s

def pass (h : Harness) (e : Surroundings σ) (s : Scene σ) : Scene σ × Option Failure :=
  match h.build.run e.tools s.world with
  | (w, some f) => (atWorld s w, some (Phase.build.failure f))
  | (w, none) => h.selected e (atWorld s w)

end Harness

end Gauntlet
