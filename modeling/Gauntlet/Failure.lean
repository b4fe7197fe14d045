import Gauntlet.Case
import Gauntlet.Duration

/-! # Failures

  A failure is a tree: a message may wrap another failure, and several failures
  may be joined. Three kinds have a meaning of their own:

  - `runtime`: the harness itself could not do its work;
  - `caseFailure`: a completed run has failing cases;
  - `command`: a command did not end well.

  The exit code of the program is 2 if a `runtime` failure can be reached by
  unwrapping, 1 for any other failure and 0 for none. A `shown` failure quotes
  another one's text only, so nothing is reached through it.
-/

namespace Gauntlet

/-- What went wrong, with its causes. -/
inductive Failure where
  /-- A message. -/
  | plain (message : Text)
  /-- The message of a fault in the program itself, at which the work is broken off. -/
  | crash (message : Text)
  /-- A message in front of a cause that can be unwrapped. -/
  | wrap (message : Text) (cause : Option Failure)
  /-- A message in front of the text of a cause that cannot be unwrapped. -/
  | shown (message : Text) (cause : Option Failure)
  /-- Several failures at once. -/
  | join (causes : List Failure)
  | runtime (phase : Text) (cause : Option Failure)
  /-- A completed run has failing cases. -/
  | caseFailure (failed : List Case) (total : Int)
  /-- A command did not end well. -/
  | command (command : Text) (exitCode : Int) (timedOut : Bool) (duration : Duration)
      (cause : Option Failure)
  deriving Repr, Inhabited

/-- How a process ended. -/
structure Ending where
  exitCode : Int := 0
  timedOut : Bool := false
  /-- Why the process could not be started or waited for. -/
  cause : Option Failure := none
  duration : Duration := Duration.zero
  deriving Repr, Inhabited

namespace Ending

/-- The exit code of a process that timed out, was killed or never started. -/
def unknownCode : Int := -1

/-- The process started, ended in time and exited with 0. -/
def success (e : Ending) : Bool := e.cause.isNone && !e.timedOut && e.exitCode = 0

end Ending

namespace Failure

/-- The wording of a failed command. -/
def commandText (command : Text) (exitCode : Int) (timedOut : Bool) (duration : Duration)
    (cause : Option Text) : Text :=
  match cause with
  | some m => "command " ++ Text.quoted command ++ " failed: " ++ m
  | none =>
    if timedOut then
      "command " ++ Text.quoted command ++ " timed out after " ++ duration.toMillisecond.text
    else "command " ++ Text.quoted command ++ " failed with exit code " ++ Numeral.ofInt exitCode

/-- The wording of a run with failing cases. -/
def caseFailureText (failed : List Case) (total : Int) : Text :=
  "test failure: " ++ Numeral.ofNat failed.length ++ " of " ++ Numeral.ofInt total ++
    " tests failed: " ++ Text.intercalate ", " (failed.map Case.name)

mutual

def message : Failure → Text
  | plain m => m
  | crash m => m
  | wrap m cause => m ++ ": " ++ causeText "%!w(<nil>)" cause
  | shown m cause => m ++ ": " ++ causeText "<nil>" cause
  | join causes => Text.intercalate "\n" (messages causes)
  | runtime phase cause =>
    if phase = [] then "runtime error: " ++ causeText "<nil>" cause
    else "runtime error during " ++ phase ++ ": " ++ causeText "<nil>" cause
  | caseFailure failed total => caseFailureText failed total
  | command c code timedOut d cause => commandText c code timedOut d (message? cause)

def causeText (missing : Text) : Option Failure → Text
  | none => missing
  | some f => message f

/-- The text of a cause, if there is one. -/
def message? : Option Failure → Option Text
  | none => none
  | some f => some (message f)

def messages : List Failure → List Text
  | [] => []
  | f :: fs => message f :: messages fs

end

/-- The failure inside a failure; joined failures have no single one. -/
def unwrap : Failure → Option Failure
  | wrap _ cause => cause
  | runtime _ cause => cause
  | command _ _ _ _ cause => cause
  | _ => none

mutual

/-- A failure that satisfies `p` can be reached by unwrapping. -/
def reaches (p : Failure → Bool) : Failure → Bool
  | plain m => p (plain m)
  | crash m => p (crash m)
  | wrap m cause => p (wrap m cause) || reachesCause p cause
  | shown m cause => p (shown m cause)
  | join causes => p (join causes) || reachesAny p causes
  | runtime phase cause => p (runtime phase cause) || reachesCause p cause
  | caseFailure failed total => p (caseFailure failed total)
  | command c code timedOut d cause => p (command c code timedOut d cause) || reachesCause p cause

/-- As `reaches`, for a cause that may be missing. -/
def reachesCause (p : Failure → Bool) : Option Failure → Bool
  | none => false
  | some f => reaches p f

/-- As `reaches`, for some of several failures. -/
def reachesAny (p : Failure → Bool) : List Failure → Bool
  | [] => false
  | f :: fs => reaches p f || reachesAny p fs

end

/-- The failure itself is one of the harness. -/
def isRuntime : Failure → Bool
  | runtime _ _ => true
  | _ => false

/-- The failure itself reports failing cases. -/
def isCaseFailure : Failure → Bool
  | caseFailure _ _ => true
  | _ => false

/-- Several failures that may be missing, joined; nothing if all are missing. -/
def joined? (fs : List (Option Failure)) : Option Failure :=
  match fs.filterMap id with
  | [] => none
  | present => some (join present)

/-- The failure of a command that ended in a given way. -/
def ofEnding (command : Text) (e : Ending) : Failure :=
  .command command e.exitCode e.timedOut e.duration e.cause

/-! ### Exit codes -/

/-- The exit code of the program for an outcome that may be a failure. -/
def exitCode : Option Failure → Nat
  | none => 0
  | some f => if f.reaches isRuntime then 2 else 1

end Failure

end Gauntlet
