import Gauntlet.Run

/-! # The summary of a run

  A run without failures puts one line on the output stream. Otherwise the error
  stream gets a heading and the source of each failing case, one per line. The
  first line that a stream refuses ends the writing.
-/

namespace Gauntlet.Report

/-- A stream that takes whole lines, possibly only a limited number of them. -/
structure Stream where
  written : Text := []
  /-- How many more writes succeed; `none` if all do. -/
  room : Option Nat := none
  /-- How many writes were refused. -/
  refused : Nat := 0
  /-- What the stream says when it refuses a write. -/
  fault : Text := "stream closed"
  deriving Repr, Inhabited, DecidableEq

/-- The two streams of a report. -/
structure Streams where
  out : Stream := {}
  err : Stream := {}
  deriving Repr, Inhabited, DecidableEq

/-- The failure of a stream that takes no more. -/
def Stream.refusal (s : Stream) : Failure := .plain s.fault

/-- One write to a stream, and the failure if it is refused. -/
def Stream.put (s : Stream) (t : Text) : Stream × Option Failure :=
  match s.room with
  | none => ({ s with written := s.written ++ t }, none)
  | some 0 => ({ s with refused := s.refused + 1 }, some s.refusal)
  | some (n + 1) => ({ s with written := s.written ++ t, room := some n }, none)

/-- Writes one line after another until one is refused. -/
def Stream.putLines (s : Stream) : List Text → Stream × Option Failure
  | [] => (s, none)
  | l :: ls =>
    match s.put (l ++ "\n") with
    | (s', some f) => (s', some f)
    | (s', none) => s'.putLines ls

def failedHeading : Text := "Failed tests:"

/-- The line of a run without failures. -/
def allPassed : Text := "All tests passed :)"

def summary (r : Run) (s : Streams) : Streams × Option Failure :=
  match r.failedCases with
  | [] =>
    let (out, f) := s.out.putLines [allPassed]
    ({ s with out }, f)
  | failed =>
    let (err, f) := s.err.putLines (failedHeading :: failed.map Case.source)
    ({ s with err }, f)

end Gauntlet.Report
