import Gauntlet.Case
import Gauntlet.Failure
import Gauntlet.SortedMap

/-! # Metrics

  What happened is counted in families of series. A series of a family is known by
  the values of its labels, and it exists from the first time it is recorded.

  - Counts of single events never decrease. The totals of runs are added up modulo
    2^64, and adding a negative number is refused.
  - The durations of stages are kept in full; their number, sum and buckets are
    views of them.
  - Errors are counted by a label that keeps only the letters of their message.
-/

namespace Gauntlet

/-- The series of one family, by the values of their labels. -/
abbrev Family (α : Type) := SortedMap (List Text) α

/-- Everything recorded. -/
structure Metrics where
  errors : Family Nat := .empty
  /-- By result and stage. -/
  stageInvocations : Family Nat := .empty
  /-- The durations of a stage in seconds, in the order of recording. -/
  stageDurations : Family (List Float) := .empty
  /-- By failed stage and result. -/
  caseResults : Family Nat := .empty
  /-- By result and run. -/
  runResults : Family Float := .empty
  runTotal : Family UInt64 := .empty
  runPassed : Family UInt64 := .empty
  runFailed : Family UInt64 := .empty
  runDuration : Family Float := .empty
  /-- The duration of the last build that succeeded. -/
  buildDuration : Float := 0
  deriving Inhabited

namespace Metrics

/-! ### Labels of errors -/

/-- The characters of a message that a label keeps. -/
def keptInLabel (b : UInt8) : Bool := Text.isLetter b || b = 32

/-- Each pair of underscores, from the left, becomes one. -/
def halvedUnderscores : Text → Text
  | 95 :: 95 :: t => 95 :: halvedUnderscores t
  | b :: t => b :: halvedUnderscores t
  | [] => []

/-- The label of an error: its letters, with underscores for spaces. -/
def errorLabel : Option Failure → Text
  | none => "nil"
  | some f => halvedUnderscores ((f.message.filter keptInLabel).map fun b => if b = 32 then 95 else b)

/-! ### Recording -/

/-- The value of a series, or the value that a new series has. -/
def valueOr {α : Type} (family : Family α) (labels : List Text) (new : α) : α :=
  (family.get? labels).getD new

def counted (family : Family Nat) (labels : List Text) : Family Nat :=
  family.insert labels (valueOr family labels 0 + 1)

def recordError (m : Metrics) (label : Text) : Metrics :=
  { m with errors := counted m.errors [label] }

/-- Counts an error under a label that tells where it arose and what it says; no
    error counts for nothing. -/
def recordErrorDetails (m : Metrics) (label : Text) (f : Option Failure) : Metrics :=
  match f with
  | none => m
  | some _ => m.recordError (label ++ "." ++ errorLabel f)

/-- Counts an invocation of a stage. -/
def recordStage (m : Metrics) (stage : Stage) (passed : Bool) (d : Duration) : Metrics :=
  { m with
    stageInvocations := counted m.stageInvocations [(Status.ofBool passed).word, stage.name]
    stageDurations := m.stageDurations.insert [stage.name]
      (valueOr m.stageDurations [stage.name] [] ++ [d.seconds]) }

def isRecordable : Status → Bool
  | .pass => true
  | .fail => true
  | .other _ => false

/-- Counts the result of a case. -/
def recordCase (m : Metrics) (status : Status) (failedStage : Text) : Metrics :=
  if isRecordable status then
    { m with caseResults := counted m.caseResults [failedStage, status.word] }
  else m

/-- The refusal to count down. -/
def decrease : Text := "counter cannot decrease in value"

/-- A family of totals with an amount added to one series. A negative amount is
    refused, but the series exists from then on. -/
def added (family : Family UInt64) (label : Text) (n : Int) : Family UInt64 × Bool :=
  let before := valueOr family [label] 0
  if n < 0 then (family.insert [label] before, false)
  else (family.insert [label] (before + (Float.ofInt n).toUInt64), true)

/-- Records the totals of a run; stops at the first one that is refused. -/
def recordRun (m : Metrics) (id : Text) (status : Status) (total passed failed : Int)
    (d : Duration) : Metrics × Option Text :=
  if !isRecordable status then (m, none)
  else
    let m := { m with runResults := m.runResults.insert [status.word, id] 1 }
    let (runTotal, ok) := added m.runTotal id total
    let m := { m with runTotal }
    if !ok then (m, some decrease)
    else
      let (runPassed, ok) := added m.runPassed id passed
      let m := { m with runPassed }
      if !ok then (m, some decrease)
      else
        let (runFailed, ok) := added m.runFailed id failed
        let m := { m with runFailed }
        if !ok then (m, some decrease)
        else ({ m with runDuration := m.runDuration.insert [id] d.seconds }, none)

def recordBuild (m : Metrics) (d : Duration) : Metrics := { m with buildDuration := d.seconds }

/-! ### Views -/

/-- The value of a series. -/
inductive Sample where
  | value (x : Float)
  /-- The observed values in order. -/
  | histogram (xs : List Float)

/-- A series with its name and labels. -/
structure Series where
  name : Text
  labels : List (Text × Text)
  sample : Sample

/-- The upper bounds of the buckets of stage durations. -/
def bounds : List Float := [0.05, 0.1, 0.25, 0.5, 1, 2, 3, 5, 10, 30]

/-- For each bound, how many of the values it covers. -/
def buckets (xs : List Float) : List (Float × Nat) :=
  bounds.map fun b => (b, (xs.filter fun x => x ≤ b).length)

/-- The sum of values in the order in which they were recorded. -/
def sum (xs : List Float) : Float := xs.foldl (· + ·) 0

/-- The series of a family, by increasing label values. -/
def seriesOf {α : Type} (name : String) (labels : List String) (sample : α → Sample)
    (family : Family α) : List Series :=
  family.pairs.map fun (values, x) =>
    { name, labels := (labels.map Text.ofString).zip values, sample := sample x }

/-- All series, by name and label values. -/
def series (m : Metrics) : List Series :=
  [{ name := "build_duration_seconds", labels := [], sample := .value m.buildDuration }] ++
  seriesOf "errors_total" ["error"] (fun n => .value n.toFloat) m.errors ++
  seriesOf "run_duration_seconds" ["run_id"] .value m.runDuration ++
  seriesOf "run_results" ["result", "run_id"] .value m.runResults ++
  seriesOf "run_test_failed" ["run_id"] (fun n => .value n.toFloat) m.runFailed ++
  seriesOf "run_test_passed" ["run_id"] (fun n => .value n.toFloat) m.runPassed ++
  seriesOf "run_test_total" ["run_id"] (fun n => .value n.toFloat) m.runTotal ++
  seriesOf "stage_duration_seconds" ["stage"] .histogram m.stageDurations ++
  seriesOf "stage_invocations_total" ["result", "stage"] (fun n => .value n.toFloat)
    m.stageInvocations ++
  seriesOf "test_results_total" ["failed_stage", "result"] (fun n => .value n.toFloat)
    m.caseResults

end Metrics

end Gauntlet
