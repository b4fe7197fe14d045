import Gauntlet.Archive.Unpack
import Gauntlet.World

/-! # Building the toolchain

  A build runs the build tool and unpacks the archive that it produced. Either part
  may be left out. The first failure ends the build.
-/

namespace Gauntlet

/-- What a build consists of. -/
structure BuildPlan where
  /-- The invocation of the build tool; empty skips it. -/
  command : List Text := []
  dir : Text := []
  timeout : Duration := Duration.zero
  /-- The distribution archive; empty skips unpacking. -/
  archive : Text := []
  /-- Where the archive is unpacked. -/
  dest : Text := []
  deriving DecidableEq, Repr, Inhabited

namespace BuildPlan

/-- The refusal of a plan without a toolchain. -/
def noRunner : Failure := .plain "runner is required"

/-- Why a plan cannot be carried out, if it cannot. -/
def defect? (p : BuildPlan) : Option Failure :=
  if p.archive ≠ [] ∧ p.dest = [] then
    some (.plain "destination directory is required when an archive is set")
  else none

def toolCommand? (p : BuildPlan) : Option Command :=
  match p.command with
  | [] => none
  | program :: args => some { program, args, dir := p.dir, timeout := p.timeout }

variable {σ : Type}

/-- Runs the build tool; tells how long it took. -/
def runTool (p : BuildPlan) (tools : Toolchain σ) (w : World σ) :
    World σ × Except Failure Duration :=
  match p.toolCommand? with
  | none => (w, .ok Duration.zero)
  | some c =>
    let (ending, w, _) := w.issue tools none c
    if ending.success then (w, .ok ending.duration)
    else
      let f := Failure.ofEnding c.text ending
      (w.measured fun m => m.recordErrorDetails "build" (some f),
        .error (.wrap "build failed" (some f)))

def runUnpack (p : BuildPlan) (w : World σ) : World σ × Option Failure :=
  if p.archive = [] then (w, none)
  else
    let (d, _, failed) := Archive.unpack w.disk p.archive p.dest
    let w := w.withDisk d
    match failed with
    | none => (w, none)
    | some f => (w.measured fun m => m.recordErrorDetails "unpack" (some f),
        some (.wrap ("failed to unpack " ++ p.archive) (some f)))

def run (p : BuildPlan) (tools : Toolchain σ) (w : World σ) : World σ × Option Failure :=
  match p.runTool tools w with
  | (w, .error f) => (w, some f)
  | (w, .ok elapsed) =>
    match p.runUnpack w with
    | (w, some f) => (w, some f)
    | (w, none) => (w.measured fun m => m.recordBuild elapsed, none)

end BuildPlan

end Gauntlet
