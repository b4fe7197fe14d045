import Gauntlet.Disk

/-! # Settings

  What a harness needs to know: where the project is, how the toolchain is built
  and invoked, and where results go. Settings are usable when `check` accepts them;
  `anchored` makes their paths absolute.
-/

namespace Gauntlet

/-- The endpoint that serves metrics. -/
structure MetricsEndpoint where
  enabled : Bool := false
  addr : Text := []
  port : Int := 0
  deriving DecidableEq, Repr, Inhabited

/-- The settings of a harness. -/
structure Settings where
  /-- The root of the toolchain project. -/
  projectDir : Text := []
  /-- The directory that holds the test sources. -/
  testsDir : Text := []
  /-- The suffix of test sources. -/
  suffix : Text := []
  /-- A part that selected sources have in their path; empty selects all. -/
  pattern : Text := []
  /-- The directory for assembly and binaries. -/
  scratchDir : Text := []
  /-- The invocation of the build tool; empty skips the build. -/
  buildCommand : List Text := []
  /-- The time limit of the build; zero means none. -/
  buildTimeout : Duration := Duration.zero
  /-- The distribution archive; empty skips unpacking. -/
  archive : Text := []
  launcher : Text := []
  launcherArgs : List Text := []
  /-- The linker and its leading arguments. -/
  linker : List Text := []
  /-- The time limit of every stage. -/
  timeout : Duration := Duration.zero
  /-- How many cases run at once. -/
  concurrency : Int := 0
  /-- The directory for logs of cases; empty means no logs. -/
  logDir : Text := []
  /-- The path of the report; empty means no report. -/
  reportFile : Text := []
  /-- A table of results is printed. -/
  summaryTable : Bool := false
  /-- The time from the end of one run to the next. -/
  runInterval : Duration := Duration.zero
  /-- The harness ends after one run. -/
  runOnce : Bool := false
  /-- The listen address of the health endpoint; empty means none. -/
  healthzAddr : Text := []
  metrics : MetricsEndpoint := {}
  deriving DecidableEq, Repr, Inhabited

namespace Settings

/-! ### Checking -/

/-- Why settings cannot be used. -/
inductive Defect where
  | noTestsDir
  | noScratchDir
  | noSuffix
  | noLauncher
  | noLinker
  | timeout (d : Duration)
  | concurrency (n : Int)
  | runInterval (d : Duration)
  deriving DecidableEq, Repr

def Defect.message : Defect → Text
  | noTestsDir => "tests directory is required"
  | noScratchDir => "scratch directory is required"
  | noSuffix => "test suffix is required"
  | noLauncher => "launcher is required"
  | noLinker => "linker is required"
  | timeout d => "timeout must be positive, got " ++ d.text
  | concurrency n => "concurrency must be at least 1, got " ++ Numeral.ofInt n
  | runInterval d => "run interval cannot be negative, got " ++ d.text

/-- The first defect of settings, if there is one. -/
def check (s : Settings) : Option Defect :=
  if s.testsDir = [] then some .noTestsDir
  else if s.scratchDir = [] then some .noScratchDir
  else if s.suffix = [] then some .noSuffix
  else if s.launcher = [] then some .noLauncher
  else if s.linker = [] then some .noLinker
  else if !s.timeout.isPositive then some (.timeout s.timeout)
  else if s.concurrency < 1 then some (.concurrency s.concurrency)
  else if s.runInterval.toInt < 0 then some (.runInterval s.runInterval)
  else none

/-! ### Paths -/

/-- A relative path that is not empty, put below a directory; other paths stay as they
    are. -/
def anchorPath (dir p : Text) : Text :=
  if p = [] ∨ Path.isAbsolute p then p else Path.join [dir, p]

/-- The settings with their paths anchored at an absolute project directory. -/
def anchoredAt (s : Settings) (dir : Text) : Settings :=
  { s with
    projectDir := dir
    testsDir := anchorPath dir s.testsDir
    scratchDir := anchorPath dir s.scratchDir
    archive := anchorPath dir s.archive
    logDir := anchorPath dir s.logDir
    reportFile := anchorPath dir s.reportFile }

/-- The project directory as it was given; the working directory if it is empty. -/
def givenProjectDir (s : Settings) : Text := if s.projectDir = [] then Path.here else s.projectDir

/-- The settings with all paths absolute. -/
def anchored (s : Settings) (d : Disk) : Except Failure Settings :=
  match d.absolute s.givenProjectDir with
  | .ok dir => .ok (s.anchoredAt dir)
  | .error f => .error (.wrap ("failed to resolve absolute path for project directory '" ++
      s.givenProjectDir ++ "'") (some f))

end Settings

end Gauntlet
