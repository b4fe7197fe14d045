import Gauntlet.Case
import Gauntlet.Disk.Directory
import Gauntlet.Terminal
import Gauntlet.Text.Escape

/-! # Logs of cases

  Each case of a run has a log file in the directory of the run. The log takes the
  output of the case's commands line by line, without escape sequences, under one
  heading per stage; the terminal gets the same output as it is.

  - A line enters the file when its end arrives. A line that has not ended is kept
    back, separately for each stream.
  - A heading, and the end of the log, first end the lines that were kept back.
  - A closed log takes nothing more and reports no failure.
-/

namespace Gauntlet

/-- Where the logs of all runs are. -/
structure LogStore where
  base : Text
  deriving DecidableEq, Repr, Inhabited

namespace LogStore

def runDir (s : LogStore) (run : Text) : Text := Path.join [s.base, "testrun-" ++ run]

def logPath (s : LogStore) (run : Text) (c : Case) : Text :=
  Path.join [s.runDir run, c.name ++ ".log"]

def directoryFailure (p : Text) (e : OsError) : Failure :=
  .wrap ("failed to create directory " ++ p) (some e.failure)

/-- A store at a directory, which is made if it is missing. -/
def create (d : Disk) (base : Text) : Disk × Except Failure LogStore :=
  if base = [] then (d, .error (.plain "baseDir cannot be empty"))
  else match d.mkdirs base 0o755 with
    | (d', some e) => (d', .error (directoryFailure base e))
    | (d', none) => (d', .ok ⟨base⟩)

end LogStore

/-! ### Logs -/

/-- Whether a log takes output. -/
inductive LogState where
  | opened
  /-- The file was closed underneath; every write fails. -/
  | broken
  | closed
  deriving DecidableEq, Repr, Inhabited

/-- The log of one case. -/
structure CaseLog where
  path : Text
  location : Location
  state : LogState := .opened
  /-- The output of each stream that is kept back. -/
  outRest : Text := []
  errRest : Text := []
  deriving Repr, Inhabited

namespace CaseLog

def newline : UInt8 := 10

def cutLines : Text → List Text × Text
  | [] => ([], [])
  | b :: t =>
    match cutLines t with
    | (lines, rest) =>
      if b = newline then ([b] :: lines, rest)
      else match lines with
        | [] => ([], b :: rest)
        | l :: ls => ((b :: l) :: ls, rest)

/-- The failure of a request on a file that was closed underneath. -/
def brokenFailure (l : CaseLog) (request : Text) : Failure :=
  .plain (request ++ " " ++ l.path ++ ": file already closed")

/-- What a stream keeps back. -/
def rest (l : CaseLog) : Channel → Text
  | .out => l.outRest
  | .err => l.errRest

/-- The log with another text kept back for a stream. -/
def withRest (l : CaseLog) (c : Channel) (t : Text) : CaseLog :=
  match c with
  | .out => { l with outRest := t }
  | .err => { l with errRest := t }

/-- The file with texts added, if the log takes output. -/
def add (l : CaseLog) (d : Disk) (t : Text) : Disk :=
  if l.state = .opened then d.append l.location t else d

def start (d : Disk) (s : LogStore) (run : Text) (c : Case) : Disk × Except Failure CaseLog :=
  if run = [] then (d, .error (.plain "runID cannot be empty"))
  else match d.mkdirs (s.runDir run) 0o755 with
    | (d', some e) => (d', .error (LogStore.directoryFailure (s.runDir run) e))
    | (d', none) =>
      let path := s.logPath run c
      match d'.create path with
      | .error e => (d', .error (.wrap ("failed to create file " ++ path) (some e.failure)))
      | .ok (location, d'') => (d'', .ok { path, location })

/-- Takes a piece of output of a stream. -/
def write (l : CaseLog) (d : Disk) (c : Channel) (piece : Text) :
    CaseLog × Disk × Option Failure :=
  match cutLines (l.rest c ++ piece), l.state with
  | (_ :: lines, left), .broken =>
    (l.withRest c (lines.flatten ++ left), d, some (l.brokenFailure "write"))
  | (lines, left), _ => (l.withRest c left, l.add d (lines.flatMap Text.withoutEscapes), none)

/-- Ends the line that a stream keeps back. -/
def endLine (l : CaseLog) (d : Disk) (c : Channel) : CaseLog × Disk :=
  match l.rest c with
  | [] => (l, d)
  | t => (l.withRest c [], l.add d (Text.withoutEscapes (t ++ [newline])))

/-- Ends the lines of both streams. -/
def endLines (l : CaseLog) (d : Disk) : CaseLog × Disk :=
  let (l, d) := l.endLine d .out
  l.endLine d .err

def heading (title : Text) : Text := "=== " ++ title ++ " ===\n"

def beginSection (l : CaseLog) (d : Disk) (title : Text) : CaseLog × Disk × Option Failure :=
  let (l, d) := l.endLines d
  match l.state with
  | .opened => (l, l.add d (heading title), none)
  | .broken => (l, d, some (l.brokenFailure "write"))
  | .closed => (l, d, some (.plain "test log is closed"))

/-- Closes the log; closing it again does nothing. -/
def close (l : CaseLog) (d : Disk) : CaseLog × Disk × Option Failure :=
  let (l, d) := l.endLines d
  match l.state with
  | .opened => ({ l with state := .closed }, d, none)
  | .broken => ({ l with state := .closed }, d, some (l.brokenFailure "close"))
  | .closed => (l, d, none)

/-- The log with its file closed underneath. -/
def damage (l : CaseLog) : CaseLog :=
  { l with state := if l.state = .closed then .closed else .broken }

end CaseLog

end Gauntlet
