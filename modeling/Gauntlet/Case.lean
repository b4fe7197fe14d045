import Gauntlet.Text

/-! # Cases, stages and verdicts

  A case is one program to be taken through the toolchain. Its course has three
  stages: the launcher interprets the source and emits assembly, the linker makes
  a binary of it, and the binary is executed. The verdict of a case is `pass`, or
  the stage at which it failed.
-/

namespace Gauntlet

/-- One selected program. -/
structure Case where
  /-- The path under which the program was found; reports identify it by this. -/
  source : Text
  /-- The last component of the resolved source; it names the artifacts. -/
  name : Text
  deriving DecidableEq, Repr, Inhabited

/-! ### Stages -/

/-- A step of a case's course, by its name. -/
structure Stage where
  name : Text
  deriving DecidableEq, Repr, Inhabited

namespace Stage

/-- The launcher turns the source into assembly. -/
def interpret : Stage := ⟨"interpret"⟩

/-- The linker turns the assembly into a binary. -/
def link : Stage := ⟨"link"⟩

/-- The binary runs. -/
def execute : Stage := ⟨"execute"⟩

/-- The stages in the order in which they run. -/
def all : List Stage := [interpret, link, execute]

/-- The heading of a stage's output in a log. -/
def label (s : Stage) : Text :=
  if s = interpret then "Interpreter"
  else if s = link then "Linking"
  else "Running compiled binary"

end Stage

/-! ### Status -/

/-- Whether a case or a run passed. Stored results may carry another word. -/
inductive Status where
  | pass
  | fail
  | other (word : Text)
  deriving DecidableEq, Repr, Inhabited

namespace Status

def word : Status → Text
  | pass => "pass"
  | fail => "fail"
  | other w => w

def ofWord (w : Text) : Status :=
  if w = pass.word then pass else if w = fail.word then fail else other w

/-- `pass` if it holds, else `fail`. -/
def ofBool (b : Bool) : Status := if b then pass else fail

end Status

/-! ### Verdicts -/

/-- How a case ended. -/
inductive Verdict where
  | pass
  | failedAt (stage : Stage)
  deriving DecidableEq, Repr, Inhabited

namespace Verdict

/-- The verdict recorded by the name of a failed stage; no name means `pass`. -/
def ofStage (s : Stage) : Verdict := if s.name = [] then pass else failedAt s

def passed : Verdict → Bool
  | pass => true
  | failedAt _ => false

/-- The name of the failed stage, empty if there is none. -/
def failedStage : Verdict → Text
  | pass => []
  | failedAt s => s.name

def text : Verdict → Text
  | pass => "pass"
  | failedAt s => "failed at " ++ s.name

def status (v : Verdict) : Status := Status.ofBool v.passed

end Verdict

end Gauntlet
