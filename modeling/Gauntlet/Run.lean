import Gauntlet.CaseResult
import Gauntlet.Instant

/-! # Runs

  A run holds one slot per selected case, in the order of selection, and totals
  over the slots filled so far.
-/

namespace Gauntlet

/-- The aggregated result of one run. -/
structure Run where
  id : Text := []
  /-- One slot per selected case; `none` until its result is recorded. -/
  results : List (Option CaseResult) := []
  status : Status := .fail
  /-- The sum of the durations of the recorded cases. -/
  duration : Duration := Duration.zero
  /-- The time from start to end. -/
  wallClock : Duration := Duration.zero
  total : Int := 0
  passed : Int := 0
  failed : Int := 0
  start : ZonedInstant := ⟨Instant.yearOne, 0⟩
  parallel : Bool := false
  deriving Repr, Inhabited

namespace Run

def recorded (r : Run) : List CaseResult := r.results.filterMap fun c => c

def failures (r : Run) : List CaseResult := r.recorded.filter fun c => !c.verdict.passed

def failedCases (r : Run) : List Case := r.failures.map CaseResult.case

/-! ### Text -/

def failureText (c : CaseResult) : Text :=
  "├── Test: " ++ c.case.source ++ " (" ++ c.duration.tenths ++ ") [" ++ c.verdict.text ++ "]\n" ++
  match c.failedStage? with
  | some r => if r.detail = [] then [] else "│       └── Error: " ++ r.detail ++ "\n"
  | none => []

/-- The run as text: the totals, then the failing cases. -/
def text (r : Run) : Text :=
  "Test Run Results (" ++ r.wallClock.tenths ++ "):\n" ++
  "Total: " ++ Numeral.ofInt r.total ++ ", Passed: " ++ Numeral.ofInt r.passed ++ ", Failed: " ++
    Numeral.ofInt r.failed ++ "\n" ++
  r.failures.flatMap failureText

end Run

end Gauntlet
