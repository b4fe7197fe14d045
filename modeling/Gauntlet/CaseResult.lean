import Gauntlet.Failure

/-! # Results of cases

  Each stage that ran leaves a record; the result of a case is its verdict and
  the records in order.
-/

namespace Gauntlet

/-- What one stage did. -/
structure StageRecord where
  stage : Stage
  command : Text := []
  exitCode : Int := 0
  timedOut : Bool := false
  /-- Why the stage could not be started, or its precondition failed. -/
  cause : Option Failure := none
  duration : Duration := Duration.zero
  deriving Repr, Inhabited

namespace StageRecord

/-- The stage lets the course continue. -/
def passed (r : StageRecord) : Bool := r.cause.isNone && !r.timedOut && r.exitCode = 0

/-- Why the stage failed; empty if it passed. -/
def detail (r : StageRecord) : Text :=
  match r.cause with
  | some f => f.message
  | none =>
    if r.timedOut then "timed out after " ++ r.duration.toMillisecond.text
    else if r.exitCode ≠ 0 then "exit code " ++ Numeral.ofInt r.exitCode
    else []

end StageRecord

/-- The result of one case. -/
structure CaseResult where
  case : Case
  verdict : Verdict := .pass
  /-- The stages that ran, in order. -/
  stages : List StageRecord := []
  duration : Duration := Duration.zero
  deriving Repr, Inhabited

namespace CaseResult

/-- Whether the case passed, as a status. -/
def status (r : CaseResult) : Status := r.verdict.status

/-- The record of the failed stage: the last one, if it is of that stage. -/
def failedStage? (r : CaseResult) : Option StageRecord :=
  match r.verdict, r.stages.getLast? with
  | .failedAt s, some last => if last.stage = s then some last else none
  | _, _ => none

/-- The last record of a failing case, whatever its stage. -/
def lastOfFailed? (r : CaseResult) : Option StageRecord :=
  if r.verdict.passed then none else r.stages.getLast?

end CaseResult

end Gauntlet
