import Gauntlet.Harness.Session
import Gauntlet.Settings.Choice
import Gauntlet.Settings.CommandLine

/-! # The application

  A command line is answered with text on the two streams and an exit code: 0 if all
  went well, 1 if cases failed or the command line was wrong, 2 if the harness failed.
  A harness that runs for good keeps its session instead.
-/

namespace Gauntlet

namespace Application

def name : Text := "progtest"

def version : Text := "v0.1.0--"

/-- What the program is for. -/
def purpose : Text := "Toolchain end-to-end test harness"

def helpLine (f : Flag) : Text := "   --" ++ f.name ++ "\t" ++ f.usage ++ "\n"

def help : Text :=
  "NAME:\n   " ++ name ++ " - " ++ purpose ++ "\n\nUSAGE:\n   " ++ name ++
    " [global options] [pattern]\n\nGLOBAL OPTIONS:\n" ++
    (Flag.all ++ [Flag.help, Flag.version]).flatMap helpLine

/-- What a command line led to; `σ` is what the toolchain remembers. -/
structure Outcome (σ : Type) where
  exitCode : Nat := 0
  out : Text := []
  err : Text := []
  /-- The session, if the harness was started. -/
  session : Option (Session σ) := none
  disk : Disk
  /-- The harness, if it keeps running. -/
  serving : Option Harness := none

variable {σ : Type}

/-- The answer to a command line that cannot be taken. -/
def misused (d : Disk) : UsageFault → Outcome σ
  | .noTopic topic true =>
    { exitCode := 3, err := (UsageFault.noTopic topic true).message ++ "\n", disk := d }
  | .noTopic _ false => { exitCode := 1, disk := d }
  | f => { exitCode := 1, out := "Incorrect Usage: " ++ f.message ++ "\n\n" ++ help, disk := d }

/-- The answer to a failure, with what was printed before it. -/
def failed (d : Disk) (s : Option (Session σ)) (out err message : Text) (f : Failure) : Outcome σ :=
  let f := Failure.wrap message (some f)
  { exitCode := Failure.exitCode (some f), out, err := err ++ f.message ++ "\n", session := s, disk := d }

/-- Starts a harness, and stops it again if it runs once. -/
def started (h : Harness) (e : Surroundings σ) (s : Session σ) : Outcome σ :=
  let (s, f) := s.start h e
  let w := s.scene.world
  let out := w.terminal.out ++ s.scene.streams.out.written
  let err := w.terminal.err ++ s.scene.streams.err.written
  match f with
  | some f => failed w.disk (some s) out err "failed to start" f
  | none =>
    if s.closing then { out, err, session := some (s.stop h), disk := w.disk }
    else { out, err, session := some s, disk := w.disk, serving := some h }

/-- Runs a harness with the given settings. -/
def performed (e : Surroundings σ) (memory : σ) (d : Disk) (given : Given) (positional : List Text) :
    Outcome σ :=
  match Settings.ofGiven d given positional with
  | .error f =>
    failed d none [] [] "failed to setup"
      (Phase.config.failure (.wrap "failed to create config" (some f)))
  | .ok settings =>
    match Harness.create d settings with
    | (d, .error f) =>
      failed d none [] [] "failed to setup"
        (Phase.setup.failure (.wrap "failed to create harness" (some f)))
    | (d, .ok h) => started h e { scene := { world := { machine := { disk := d }, memory } } }

/-- Answers a command line. -/
def run (e : Surroundings σ) (memory : σ) (d : Disk) (env : Environment) (args : List Text) :
    Outcome σ :=
  match CommandLine.request true env args with
  | .error f => misused d f
  | .ok .help => { out := help, disk := d }
  | .ok .version => { out := name ++ " version " ++ version ++ "\n", disk := d }
  | .ok (.run given positional) => performed e memory d given positional

end Application

end Gauntlet
