import Gauntlet.Text.Quoted
import Gauntlet.Numeral

/-! # Faults of YAML documents

  A document that is no YAML has one fault. Where the place is known, the fault
  names a line. A document that is YAML but does not have the expected shape has a
  list of mismatches.
-/

namespace Gauntlet.Yaml

/-- A place in a document, counted from zero. -/
structure Mark where
  index : Nat := 0
  line : Nat := 0
  column : Nat := 0
  deriving DecidableEq, Repr, Inhabited

/-- Why a document cannot be read. -/
structure Fault where
  /-- The line, counted from one; zero if it is not told. -/
  line : Nat := 0
  problem : Text
  deriving DecidableEq, Repr, Inhabited

namespace Fault

/-- The first of two lines that is not the first line of the document. -/
def firstKnown (a b : Nat) : Nat := if a ≠ 0 then a else b

def ofCharacter (problem : Text) : Fault := { problem }

/-- A fault met at `mark` in a lexeme that began at `start`. -/
def ofLexeme (start mark : Mark) (problem : Text) : Fault :=
  let line := firstKnown start.line mark.line
  { line := if line = 0 then 0 else line + 1, problem }

/-- A fault in the order of tokens, inside a construct that began at `start`. -/
def ofToken (start mark : Mark) (problem : Text) : Fault :=
  { line := firstKnown start.line mark.line, problem }

def message (f : Fault) : Text :=
  "yaml: " ++ (if f.line = 0 then ([] : Text) else "line " ++ Numeral.ofNat f.line ++ ": ") ++ f.problem

end Fault

/-- Why a document was not taken: a fault, or a list of mismatches. -/
inductive Refusal where
  | fault (f : Fault)
  | mismatches (ms : List Text)
  /-- A collection of this type stands where names are compared. -/
  | incomparable (type : Text)
  deriving Repr, Inhabited

def Refusal.message : Refusal → Text
  | fault f => f.message
  | mismatches ms => "yaml: unmarshal errors:\n  " ++ Text.intercalate "\n  " ms
  | incomparable type => "runtime error: hash of unhashable type " ++ type

end Gauntlet.Yaml
