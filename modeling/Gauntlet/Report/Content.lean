import Gauntlet.Datum
import Gauntlet.Run

/-! # The content of a report

  A report restates a run for other programs: its totals, its recorded cases in
  order, and the stages of each. Fields that say nothing are left out.
-/

namespace Gauntlet

/-- What a report says about a stage. -/
structure StageEntry where
  stage : Text
  command : Text
  exitCode : Int
  timedOut : Bool
  /-- Why the stage could not run; empty if it could. -/
  error : Text
  duration : Duration
  deriving DecidableEq, Repr, Inhabited

/-- What a report says about a case. -/
structure CaseEntry where
  source : Text
  name : Text
  status : Status
  /-- The stage at which the case failed; empty if it passed. -/
  failedStage : Text
  duration : Duration
  stages : List StageEntry
  deriving DecidableEq, Repr, Inhabited

/-- What a report says about a run. -/
structure Report where
  runId : Text
  status : Status
  total : Int
  passed : Int
  failed : Int
  start : ZonedInstant
  duration : Duration
  cases : List CaseEntry
  deriving DecidableEq, Repr, Inhabited

def StageEntry.ofRecord (r : StageRecord) : StageEntry where
  stage := r.stage.name
  command := r.command
  exitCode := r.exitCode
  timedOut := r.timedOut
  error := match r.cause with
    | some f => f.message
    | none => []
  duration := r.duration

def CaseEntry.ofResult (c : CaseResult) : CaseEntry where
  source := c.case.source
  name := c.case.name
  status := c.status
  failedStage := c.verdict.failedStage
  duration := c.duration
  stages := c.stages.map StageEntry.ofRecord

def Report.ofRun (r : Run) : Report where
  runId := r.id
  status := r.status
  total := r.total
  passed := r.passed
  failed := r.failed
  start := r.start
  duration := r.wallClock
  cases := r.recorded.map CaseEntry.ofResult

/-! ### As data -/

def StageEntry.datum (e : StageEntry) : Datum :=
  .record ([Datum.named "stage" (.text e.stage)] ++ Datum.namedUnlessEmpty "command" e.command ++
    [Datum.named "exit_code" (.number e.exitCode)] ++
    (if e.timedOut then [Datum.named "timed_out" (.truth true)] else []) ++
    Datum.namedUnlessEmpty "error" e.error ++ [Datum.named "duration" (.text e.duration.text)])

def CaseEntry.datum (e : CaseEntry) : Datum :=
  .record ([Datum.named "source" (.text e.source), Datum.named "name" (.text e.name),
      Datum.named "status" (.text e.status.word)] ++ Datum.namedUnlessEmpty "failed_stage" e.failedStage ++
    [Datum.named "duration" (.text e.duration.text),
      Datum.named "stages" (.list (e.stages.map StageEntry.datum))])

def Report.datum (r : Report) : Datum :=
  .record [Datum.named "run_id" (.text r.runId), Datum.named "status" (.text r.status.word),
    Datum.named "total" (.number r.total), Datum.named "passed" (.number r.passed),
    Datum.named "failed" (.number r.failed), Datum.named "start_time" (.instant r.start),
    Datum.named "duration" (.text r.duration.text), Datum.named "tests" (.list (r.cases.map CaseEntry.datum))]

end Gauntlet
