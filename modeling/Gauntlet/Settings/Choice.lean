import Gauntlet.Settings
import Gauntlet.Settings.CommandLine
import Gauntlet.Settings.File
import Gauntlet.Text.CodePoint

/-! # Choosing settings

  A setting has up to three sources. What a flag or its environment variable gives
  explicitly wins; then comes what the settings file says, unless it is empty, zero
  or false; the default is last.
-/

namespace Gauntlet

/-- The value that was given, else the file's, unless it counts as not given, else the
    default. -/
def chosen {α : Type} [DecidableEq α] (given : Option α) (empty file default : α) : α :=
  match given with
  | some v => v
  | none => if file = empty then default else file

/-- A list of words: the words of the text that was given, else the file's list,
    unless it is empty, else the words of the default. -/
def chosenWords (given : Option Text) (file : List Text) (default : Text) : List Text :=
  match given with
  | some t => Text.words t
  | none => if file = [] then Text.words default else file

namespace Settings

/-- The settings chosen from the flags, the file and the positional arguments. -/
def choose (g : Given) (f : FileSettings) (positional : List Text) : Settings :=
  let skipBuild := chosen g.skipBuild false f.skipBuild false
  let runInterval := chosen g.runInterval Duration.zero f.runInterval Duration.zero
  { projectDir := chosen g.projectDir [] f.projectDir Default.projectDir
    testsDir := chosen g.testsDir [] f.testsDir Default.testsDir
    suffix := chosen g.suffix [] f.suffix Default.suffix
    pattern := positional.headD []
    scratchDir := chosen g.scratchDir [] f.scratchDir Default.scratchDir
    buildCommand :=
      if skipBuild then [] else chosenWords g.buildCommand f.buildCommand Default.buildCommand
    buildTimeout := chosen g.buildTimeout Duration.zero f.buildTimeout Duration.zero
    archive := if skipBuild then [] else chosen g.archive [] f.archive Default.archive
    launcher := chosen g.launcher [] f.launcher Default.launcher
    launcherArgs := f.launcherArgs
    linker := chosenWords g.linker f.linker Default.linker
    timeout := chosen g.timeout Duration.zero f.timeout Default.timeout
    concurrency := chosen g.concurrency 0 f.concurrency Default.concurrency
    logDir := chosen g.logDir [] f.logDir []
    reportFile := chosen g.reportFile [] f.reportFile []
    summaryTable := chosen g.summaryTable false f.summaryTable false
    runInterval
    runOnce := runInterval = Duration.zero
    healthzAddr := chosen g.healthzAddr [] f.healthzAddr []
    metrics := {
      enabled := g.metricsEnabled.getD false
      addr := g.metricsAddr.getD Default.metricsAddr
      port := g.metricsPort.getD Default.metricsPort } }

/-- The refusal of more than one positional argument. -/
def tooManyArguments (positional : List Text) : Failure :=
  .plain ("expected at most one test pattern, got " ++ Numeral.ofNat positional.length ++
    " arguments: [" ++ Text.intercalate " " positional ++ "]")

/-- The settings file that was named, or no settings. -/
def fileOf (d : Disk) (g : Given) : Except Failure FileSettings :=
  match g.config with
  | some (b :: path) => FileSettings.load d (b :: path)
  | _ => .ok {}

/-- The settings of a run: chosen, anchored and checked. -/
def ofGiven (d : Disk) (g : Given) (positional : List Text) : Except Failure Settings :=
  if 1 < positional.length then .error (tooManyArguments positional)
  else match fileOf d g with
    | .error f => .error f
    | .ok file =>
      match (choose g file positional).anchored d with
      | .error f => .error f
      | .ok s =>
        match s.check with
        | some defect => .error (.plain defect.message)
        | none => .ok s

end Settings

end Gauntlet
