import Gauntlet.Disk.File
import Gauntlet.Yaml.Decoding

/-! # The settings file

  Settings may come from a YAML file. A setting that the file leaves out is empty,
  zero or false, and then counts as not given.
-/

namespace Gauntlet

/-- What a settings file says. -/
structure FileSettings where
  projectDir : Text := []
  testsDir : Text := []
  suffix : Text := []
  scratchDir : Text := []
  buildCommand : List Text := []
  buildTimeout : Duration := Duration.zero
  archive : Text := []
  skipBuild : Bool := false
  launcher : Text := []
  launcherArgs : List Text := []
  linker : List Text := []
  timeout : Duration := Duration.zero
  concurrency : Int := 0
  logDir : Text := []
  reportFile : Text := []
  summaryTable : Bool := false
  runInterval : Duration := Duration.zero
  healthzAddr : Text := []
  deriving DecidableEq, Repr, Inhabited

namespace FileSettings

def slot (name : String) (s : Yaml.Slot FileSettings) : Text × Yaml.Slot FileSettings :=
  (Text.ofString name, s)

def buildSlot : Yaml.Slot FileSettings :=
  .record ("struct \x7b Command []string \"yaml:\\\"command\\\"\"; " ++
      "Timeout time.Duration \"yaml:\\\"timeout\\\"\"; " ++
      "Archive string \"yaml:\\\"archive\\\"\"; Skip bool \"yaml:\\\"skip\\\"\" \x7d" : String) [
    slot "command" (.texts fun v s => { s with buildCommand := v }),
    slot "timeout" (.duration fun v s => { s with buildTimeout := v }),
    slot "archive" (.text fun v s => { s with archive := v }),
    slot "skip" (.truth fun v s => { s with skipBuild := v })]

def rootSlot : Yaml.Slot FileSettings :=
  .record "progtest.FileConfig" [
    slot "project_dir" (.text fun v s => { s with projectDir := v }),
    slot "tests_dir" (.text fun v s => { s with testsDir := v }),
    slot "suffix" (.text fun v s => { s with suffix := v }),
    slot "scratch_dir" (.text fun v s => { s with scratchDir := v }),
    slot "build" buildSlot,
    slot "launcher" (.text fun v s => { s with launcher := v }),
    slot "launcher_args" (.texts fun v s => { s with launcherArgs := v }),
    slot "linker" (.texts fun v s => { s with linker := v }),
    slot "timeout" (.duration fun v s => { s with timeout := v }),
    slot "concurrency" (.number fun v s => { s with concurrency := v }),
    slot "log_dir" (.text fun v s => { s with logDir := v }),
    slot "report_file" (.text fun v s => { s with reportFile := v }),
    slot "summary_table" (.truth fun v s => { s with summaryTable := v }),
    slot "run_interval" (.duration fun v s => { s with runInterval := v }),
    slot "healthz_addr" (.text fun v s => { s with healthzAddr := v })]

def load (d : Disk) (path : Text) : Except Failure FileSettings :=
  match d.contents path with
  | .error e => .error (.wrap "failed to read config file" (some e.failure))
  | .ok data =>
    match Yaml.decode rootSlot {} data with
    | .ok s => .ok s
    | .error (.incomparable type) => .error (.crash (Yaml.Refusal.incomparable type).message)
    | .error r =>
      .error (.wrap ("failed to parse config file " ++ path) (some (.plain r.message)))

end FileSettings

end Gauntlet
