import Gauntlet.Disk.Fixture
import Gauntlet.Run.Conduct

/-! # Rehearsals

  Stand-ins for toolchains and executors, whose behaviour is written down beforehand.
-/

namespace Gauntlet.Rehearsal

/-- What a command does in a rehearsal. -/
structure Cue where
  ending : Ending := {}
  /-- The output, if it is captured. -/
  out : Text := []
  err : Text := []
  change : Disk → Disk := id
  /-- The run is cancelled after the command. -/
  cancels : Bool := false

/-- A toolchain that follows a list of cues; a command after the last one succeeds. -/
def toolchain : Toolchain (List Cue) := fun c cues m =>
  match cues with
  | [] => { ending := {}, machine := m, memory := [] }
  | cue :: rest => {
      ending := cue.ending
      writes := if c.captured then [(.out, cue.out), (.err, cue.err)] else []
      machine := { disk := cue.change m.disk, cancelled := m.cancelled || cue.cancels }
      memory := rest }

/-- What has happened in a rehearsed run. -/
structure Stage where
  /-- The sources carried out, in order. -/
  executed : List Text := []
  cancelled : Bool := false

def executor (answer : Case → Option CaseResult) (cancelAt : Option Text) : Run.Executor Stage where
  carryOut _ c s :=
    (answer c,
      { executed := s.executed ++ [c.source]
        cancelled := s.cancelled || cancelAt = some c.source })
  cancelled s := s.cancelled

end Gauntlet.Rehearsal
