import Gauntlet.Duration
import Gauntlet.Text.LowerCase
import Gauntlet.Text.Quoted

/-! # Flags

  Settings can be given by flags, and each flag has an environment variable. The
  flags are a table: a name, a usage text, a default, and where the value goes.

  - `Given` holds what was given explicitly.
  - `Flag.all` lists the flags in the order in which they are documented.
-/

namespace Gauntlet

/-- What flags or environment variables gave explicitly. -/
structure Given where
  config : Option Text := none
  projectDir : Option Text := none
  testsDir : Option Text := none
  suffix : Option Text := none
  scratchDir : Option Text := none
  buildCommand : Option Text := none
  skipBuild : Option Bool := none
  buildTimeout : Option Duration := none
  archive : Option Text := none
  launcher : Option Text := none
  linker : Option Text := none
  timeout : Option Duration := none
  concurrency : Option Int := none
  logDir : Option Text := none
  reportFile : Option Text := none
  summaryTable : Option Bool := none
  runInterval : Option Duration := none
  healthzAddr : Option Text := none
  logLevel : Option Text := none
  logFormat : Option Text := none
  logColor : Option Bool := none
  logPid : Option Bool := none
  metricsEnabled : Option Bool := none
  metricsAddr : Option Text := none
  metricsPort : Option Int := none
  help : Option Bool := none
  version : Option Bool := none
  deriving DecidableEq, Repr, Inhabited

/-! ### Defaults -/

namespace Default

def projectDir : Text := "."
def testsDir : Text := "programs/source"
def suffix : Text := ".prog"
def scratchDir : Text := "tmp"
def buildCommand : Text := "./gradlew build"
def archive : Text := "build/distributions/compiler-playground-1.0-SNAPSHOT.zip"
def launcher : Text := "compiler-playground-1.0-SNAPSHOT/bin/compiler-playground"
def linker : Text := "gcc"
def timeout : Duration := Duration.ofSeconds 3
def concurrency : Int := 1
def metricsAddr : Text := "0.0.0.0"
def metricsPort : Int := 7300

end Default

/-! ### Values -/

/-- The wording of a text that is no number. -/
def numberProblem (reader t : Text) (f : Numeral.Fault) : Text :=
  reader ++ ": parsing " ++ Text.quoted t ++ ": " ++ f.message

/-- The words for truth values. -/
def truthOf? (t : Text) : Option Bool :=
  if ["1", "t", "T", "TRUE", "true", "True"].any fun w => t = Text.ofString w then some true
  else if ["0", "f", "F", "FALSE", "false", "False"].any fun w => t = Text.ofString w then
    some false
  else none

def logLevels : List Text :=
  ["trace", "trce", "debug", "dbug", "info", "warn", "error", "eror", "crit"].map Text.ofString

/-- Why a text names no level of log messages, if it does not; case does not count. -/
def logLevelProblem (t : Text) : Option Text :=
  if logLevels.contains (Text.lowerCase t) then none
  else some ("unknown level: " ++ Text.lowerCase t)

def logFormats : List Text := ["text", "terminal", "logfmt", "json"].map Text.ofString

/-- Why a text names no format of log messages, if it does not. -/
def logFormatProblem (t : Text) : Option Text :=
  if logFormats.contains t then none
  else some ("unrecognized log-format: " ++ Text.quoted t)

/-- What a flag takes, and where it goes. -/
inductive FlagValue where
  | text (default : Text) (store : Text → Given → Given)
  | truth (store : Bool → Given → Given)
  | number (default : Int) (store : Int → Given → Given)
  | duration (default : Duration) (store : Duration → Given → Given)
  /-- A word out of a set; `problem` tells why another word is refused. -/
  | word (default : Text) (problem : Text → Option Text) (store : Text → Given → Given)

/-! ### Flags -/

structure Flag where
  name : Text
  /-- A second name. -/
  short : Option Text := none
  /-- The environment variable that gives the value, if there is one. -/
  environment : Option Text := none
  usage : Text := []
  value : FlagValue

namespace Flag

def names (f : Flag) : List Text := f.name :: f.short.toList

/-- The flag stands for `true` when it has no value. -/
def isTruth (f : Flag) : Bool :=
  match f.value with
  | .truth _ => true
  | _ => false

/-- The text of the default value; a truth flag shows none. -/
def defaultText (f : Flag) : Text :=
  match f.value with
  | .text d _ => d
  | .truth _ => []
  | .number d _ => Numeral.ofInt d
  | .duration d _ => d.text
  | .word d _ _ => d

/-- The environment variable of a flag: its name in upper case, with underscores. -/
def variableOf (name : Text) : Text :=
  "PROGTEST_" ++ Text.upper (name.map fun b => if b = 45 ∨ b = 46 then 95 else b)

/-- A flag with an environment variable. -/
def make (name usage : String) (value : FlagValue) : Flag where
  name := name
  environment := some (variableOf name)
  usage := usage
  value := value

def settings : List Flag := [
  make "config" "Path to a YAML config file; explicit flags take precedence over its values"
    (.text [] fun v g => { g with config := some v }),
  make "project-dir" "Root of the toolchain project; relative paths are resolved against it"
    (.text Default.projectDir fun v g => { g with projectDir := some v }),
  make "tests-dir" "Directory from which to discover test sources"
    (.text Default.testsDir fun v g => { g with testsDir := some v }),
  make "suffix" "File name suffix of test sources"
    (.text Default.suffix fun v g => { g with suffix := some v }),
  make "scratch-dir" "Directory receiving emitted assembly and linked binaries"
    (.text Default.scratchDir fun v g => { g with scratchDir := some v }),
  make "build-cmd" "Build tool invocation, split on whitespace"
    (.text Default.buildCommand fun v g => { g with buildCommand := some v }),
  make "skip-build" "Skip building and unpacking the toolchain"
    (.truth fun v g => { g with skipBuild := some v }),
  make "build-timeout" "Timeout for the build tool (e.g. '10m'). 0 disables the timeout."
    (.duration Duration.zero fun v g => { g with buildTimeout := some v }),
  make "archive" "Distribution archive produced by the build, unpacked into the project directory"
    (.text Default.archive fun v g => { g with archive := some v }),
  make "launcher" "Toolchain launcher that interprets a source and emits its assembly"
    (.text Default.launcher fun v g => { g with launcher := some v }),
  make "linker" "Native assembler/linker invocation prefix, split on whitespace"
    (.text Default.linker fun v g => { g with linker := some v }),
  make "timeout" "Timeout for every stage invocation"
    (.duration Default.timeout fun v g => { g with timeout := some v }),
  make "concurrency" "Number of test cases run at once"
    (.number Default.concurrency fun v g => { g with concurrency := some v }),
  make "log-dir" "Directory for per-test output logs. Empty disables them."
    (.text [] fun v g => { g with logDir := some v }),
  make "report-file" "Write a machine-readable report (.json, .yaml or .yml)"
    (.text [] fun v g => { g with reportFile := some v }),
  make "summary-table" "Print a per-test results table"
    (.truth fun v g => { g with summaryTable := some v }),
  make "run-interval"
    "Interval between test runs (e.g. '1h', '30m'). Set to 0 or omit for run-once mode."
    (.duration Duration.zero fun v g => { g with runInterval := some v }),
  make "healthz.addr"
    "Listen address of the healthz endpoint (e.g. '0.0.0.0:8080'). Empty disables it."
    (.text [] fun v g => { g with healthzAddr := some v })]

/-- The flags of the log messages. -/
def logging : List Flag := [
  make "log.level" "The lowest log level that will be output"
    (.word "INFO" logLevelProblem fun v g => { g with logLevel := some v }),
  make "log.format"
    "Format the log output. Supported formats: 'text', 'terminal', 'logfmt', 'json', 'json-pretty',"
    (.word "text" logFormatProblem fun v g => { g with logFormat := some v }),
  make "log.color" "Color the log output if in terminal mode"
    (.truth fun v g => { g with logColor := some v }),
  make "log.pid" "Show pid in the log" (.truth fun v g => { g with logPid := some v })]

def metrics : List Flag := [
  make "metrics.enabled" "Enable the metrics server"
    (.truth fun v g => { g with metricsEnabled := some v }),
  make "metrics.addr" "Metrics listening address"
    (.text Default.metricsAddr fun v g => { g with metricsAddr := some v }),
  make "metrics.port" "Metrics listening port"
    (.number Default.metricsPort fun v g => { g with metricsPort := some v })]

def all : List Flag := settings ++ logging ++ metrics

def help : Flag where
  name := "help"
  short := some "h"
  usage := "show help"
  value := .truth fun v g => { g with help := some v }

def version : Flag where
  name := "version"
  short := some "v"
  usage := "print the version"
  value := .truth fun v g => { g with version := some v }

end Flag

end Gauntlet
