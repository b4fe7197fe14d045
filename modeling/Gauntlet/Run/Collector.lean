import Gauntlet.Run

/-! # Collecting results

  A run starts with empty slots. A result is recorded at the index of its case
  and enters the totals; a slot is filled at most once, and a refused recording
  changes nothing. Closing the run fixes its status: `pass` if every slot is
  filled and none failed.
-/

namespace Gauntlet.Run

/-- Why a result cannot be recorded. -/
inductive Refusal where
  | noRun
  | noResult
  | outOfRange (index : Int) (size : Nat)
  | recordedTwice (index : Int)
  /-- There is no place for results to wait in. -/
  | noQueue
  deriving DecidableEq, Repr

def Refusal.message : Refusal → Text
  | noRun => "result cannot be nil"
  | noResult => "test cannot be nil"
  | outOfRange i n =>
    "test index " ++ Numeral.ofInt i ++ " out of range [0," ++ Numeral.ofNat n ++ ")"
  | recordedTwice i => "test index " ++ Numeral.ofInt i ++ " recorded twice"
  | noQueue => "makechan: size out of range"

/-- A run with `size` empty slots. -/
def empty (id : Text) (size : Nat) (parallel : Bool) (start : ZonedInstant) : Run :=
  { id, results := List.replicate size none, parallel, start }

def fill (r : Run) (i : Nat) (c : CaseResult) : Run :=
  { r with
    results := r.results.set i (some c)
    duration := r.duration + c.duration
    total := r.total + 1
    passed := if c.verdict.passed then r.passed + 1 else r.passed
    failed := if c.verdict.passed then r.failed else r.failed + 1 }

/-- The slot at an index, if there is one. -/
def slot? (r : Run) (i : Int) : Option (Option CaseResult) :=
  if i < 0 then none else r.results[i.toNat]?

def record (run : Option Run) (i : Int) (result : Option CaseResult) : Except Refusal Run :=
  match run, result with
  | none, _ => .error .noRun
  | some _, none => .error .noResult
  | some r, some c =>
    match r.slot? i with
    | none => .error (.outOfRange i r.results.length)
    | some (some _) => .error (.recordedTwice i)
    | some none => .ok (r.fill i.toNat c)

/-- Fixes the status of a run that took `elapsed`. -/
def close (r : Run) (elapsed : Duration) : Run :=
  { r with
    wallClock := elapsed
    status := Status.ofBool (!(0 < r.failed || r.total ≠ r.results.length)) }

end Gauntlet.Run
