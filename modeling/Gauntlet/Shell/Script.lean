import Gauntlet.Text

/-! # Shell scripts

  The programs of a toolchain may be shell scripts. A script is a list of
  statements; statements are made of words, and a word is a list of pieces that
  are expanded when the statement runs.
-/

namespace Gauntlet.Shell

/-- What is done with the value of a parameter. -/
inductive Shape where
  | plain
  | length
  /-- Without the shortest or longest start that matches the operand. -/
  | withoutStart (longest : Bool)
  /-- Without the shortest or longest end that matches the operand. -/
  | withoutEnd (longest : Bool)
  /-- The operand, if there is no value; with `orEmpty`, also if it is empty. -/
  | orElse (orEmpty : Bool)
  /-- As `orElse`, and the operand becomes the value. -/
  | assign (orEmpty : Bool)
  /-- The operand, if there is a value. -/
  | instead (orEmpty : Bool)
  /-- The value; without one the operand is the message of a failure. -/
  | required (orEmpty : Bool)
  /-- A form that has no meaning. -/
  | senseless
  deriving DecidableEq, Repr

/-- What a file is opened for. -/
inductive Access where
  | reading
  /-- Writing to a file that is cut to nothing first. -/
  | writing
  /-- As `writing`, even where existing files are to be kept. -/
  | replacing
  | adding
  | updating
  deriving DecidableEq, Repr

mutual

inductive Piece where
  /-- Text outside quotes. -/
  | bare (t : Text)
  /-- Text inside quotes. -/
  | fixed (t : Text)
  | value (name : Text) (shape : Shape) (operand : List Piece) (quoted : Bool)
  | output (body : List Statement) (quoted : Bool)
  /-- The value of an integer expression. -/
  | number (expression : List Piece) (quoted : Bool)

/-- A change of a stream. -/
inductive Redirect where
  | file (stream : Nat) (access : Access) (path : List Piece)
  /-- The stream becomes the same as another one. -/
  | like (stream : Nat) (source : List Piece)
  /-- The stream gives the text of a document of the script, known by its number. -/
  | document (stream : Nat) (number : Nat)

/-- A statement; the line is the one that complaints name. -/
inductive Statement where
  | simple (line : Nat) (assignments : List (Text × List Piece)) (words : List (List Piece))
      (redirects : List Redirect)
  | block (body : List Statement)
  /-- A statement with streams changed. -/
  | redirected (line : Nat) (body : Statement) (redirects : List Redirect)
  /-- Statements in parentheses: they run in a copy of the shell. -/
  | apart (line : Nat) (body : List Statement) (redirects : List Redirect)
  /-- The first branch whose condition holds. -/
  | branch (arms : List (List Statement × List Statement)) (otherwise : Option (List Statement))
  /-- Repeats while the condition has the outcome `wanted`. -/
  | loop (wanted : Bool) (condition body : List Statement)
  /-- Once for each item; without a list, for each argument. -/
  | each (line : Nat) (name : Text) (items : Option (List (List Piece))) (body : List Statement)
  /-- The first arm one of whose patterns matches. -/
  | choice (line : Nat) (subject : List Piece) (arms : List (List (List Piece) × List Statement))
  | define (name : Text) (body : Statement)
  /-- Each stage reads what the one before it wrote. -/
  | pipe (stages : List Statement)
  /-- The outcome turned round. -/
  | negated (s : Statement)
  /-- The second only if the first succeeds. -/
  | both (a b : Statement)
  /-- The second only if the first fails. -/
  | either (a b : Statement)
  /-- Without waiting for it. -/
  | aside (s : Statement)

end

abbrev Word := List Piece

def assignmentOf? : Word → Option (Text × Word)
  | .bare t :: rest =>
    let isFirst (b : UInt8) : Bool := Text.isLetter b || b = Text.byte '_'
    let name := t.takeWhile fun b => isFirst b || Text.isDigit b
    match t.drop name.length with
    | b :: value =>
      if b = Text.byte '=' && name.head?.any isFirst then
        some (name, if value.isEmpty then rest else .bare value :: rest)
      else none
    | [] => none
  | _ => none

end Gauntlet.Shell
