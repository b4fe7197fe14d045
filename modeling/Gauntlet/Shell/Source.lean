import Gauntlet.Shell.Script

/-! # The text of a script

  A script is read as a list of letters, one per byte, from which tokens are taken. A
  backslash at the end of a line joins it to the next one. Documents that a line asks
  for stand on the lines that follow it; they are kept by number.
-/

namespace Gauntlet.Shell

/-! ### Letters -/

def letters (t : Text) : List Char := t.map fun b => Char.ofNat b.toNat

def textOf (cs : List Char) : Text := cs.map Text.byte

def beginsName (c : Char) : Bool := c.isAlpha || c = '_'

def isNameLetter (c : Char) : Bool := c.isAlphanum || c = '_'

def isName (cs : List Char) : Bool := cs.head?.any beginsName && cs.all isNameLetter

/-- A parameter whose name is one sign. -/
def isSpecial (c : Char) : Bool := c.isDigit || "@*#?-$!".toList.contains c

def endsWord (c : Char) : Bool := " \t\n;&|<>()".toList.contains c

/-! ### Tokens -/

/-- A redirection of which the target has not been read. -/
inductive Arrow where
  | file (stream : Nat) (access : Access)
  | like (stream : Nat)
  /-- A document; with `stripped`, tabs at the start of its lines are left out. -/
  | document (stream : Nat) (stripped : Bool)

inductive Token where
  | ended
  | newline
  | sign (s : String)
  | keyword (s : String)
  | arrow (a : Arrow)
  /-- A word; `quoted` tells that some of it is in quotes. -/
  | word (w : Word) (quoted : Bool)

namespace Token

/-- How a token is named in complaints. -/
def name : Token → Text
  | ended => "end of file"
  | newline => "newline"
  | sign s => "\"" ++ Text.ofString s ++ "\""
  | keyword s => "\"" ++ Text.ofString s ++ "\""
  | arrow _ => "redirection"
  | word _ _ => "word"

def keywords : List String :=
  ["!", "case", "do", "done", "elif", "else", "esac", "fi", "for", "if", "in", "then", "until",
   "while", "\x7b", "\x7d"]

/-- The keywords that end a list of statements. -/
def closers : List String := ["do", "done", "elif", "else", "esac", "fi", "then", "\x7d"]

def endsList : Token → Bool
  | ended => true
  | sign s => s = ")" || s = ";;"
  | keyword s => closers.contains s
  | _ => false

def isSign (s : String) : Token → Bool
  | sign t => s = t
  | _ => false

def isKeyword (s : String) : Token → Bool
  | keyword t => s = t
  | _ => false

/-- The text of a word without quotes and expansions. -/
def plain? : Token → Option Text
  | word [.bare t] false => some t
  | _ => none

/-- A token that is a keyword where keywords are looked for. -/
def asKeyword (t : Token) : Token :=
  match t.plain? with
  | some w =>
    match keywords.find? fun k => Text.ofString k = w with
    | some k => keyword k
    | none => t
  | none => t

end Token

/-! ### Defects -/

/-- Why a script cannot be read. -/
inductive Defect where
  | unexpected (found : Text) (expected : Option String)
  | unterminatedQuote
  | unterminatedAccent
  | missingBrace
  | missingParentheses
  | badLoopVariable
  | badFunctionName
  deriving DecidableEq, Repr

def Defect.text : Defect → Text
  | unexpected found none => found ++ " unexpected"
  | unexpected found (some s) =>
    let wanted : Text := if s = "word" then "word" else "\"" ++ Text.ofString s ++ "\""
    found ++ " unexpected (expecting " ++ wanted ++ ")"
  | unterminatedQuote => "Unterminated quoted string"
  | unterminatedAccent => "EOF in backquote substitution"
  | missingBrace => "Missing '\x7d'"
  | missingParentheses => "Missing '))'"
  | badLoopVariable => "Bad for loop variable"
  | badFunctionName => "Bad function name"

/-! ### Reading -/

/-- A document that a line asks for. -/
structure Awaited where
  number : Nat
  /-- The line that ends it. -/
  mark : List Char
  stripped : Bool
  /-- Nothing in it is expanded. -/
  literal : Bool

/-- A word that has been replaced by the text it stands for. -/
structure Replacement where
  word : Text
  /-- How many letters are left behind the text. -/
  behind : Nat
  /-- The text ends in a blank, so that the word behind it may stand for other text too. -/
  spaced : Bool

/-- What is left of a script. -/
structure Source where
  rest : List Char
  line : Nat := 1
  /-- A token that was read and given back. -/
  returned : Option Token := none
  /-- The documents that the present line asks for. -/
  awaited : List Awaited := []
  /-- The documents that were read. -/
  documents : List (Nat × Word) := []
  nextDocument : Nat := 0
  /-- Words that stand for other text. -/
  aliases : List (Text × Text) := []
  /-- The words that have been replaced, the last one first. -/
  replaced : List Replacement := []

/-- Reading from a source; a defect comes with its line. -/
abbrev Reader := StateT Source (Except (Defect × Nat))

namespace Reader

/-- Gives up on the present line. -/
def fail {α : Type} (d : Defect) : Reader α := fun s => .error (d, s.line)

/-- Gives up because of a token. -/
def unexpected {α : Type} (t : Token) (expected : Option String) : Reader α :=
  fail (.unexpected t.name expected)

/-- Lines joined at the start, and what follows them. -/
def joined : List Char → Nat × List Char
  | '\\' :: '\n' :: cs =>
    let (k, rest) := joined cs
    (k + 1, rest)
  | cs => (0, cs)

def peek : Reader (Option Char) := do
  let s ← get
  let (k, rest) := joined s.rest
  set { s with rest, line := s.line + k }
  return rest.head?

def peekRaw : Reader (Option Char) := do return (← get).rest.head?

def advance : Reader Unit := do
  let s ← get
  set { s with
    rest := s.rest.tail
    line := if s.rest.head? = some '\n' then s.line + 1 else s.line }

/-- Moves past letters that satisfy a predicate, lines being joined, and gives them. -/
def takeWhile (p : Char → Bool) : (fuel : Nat) → Reader (List Char)
  | 0 => return []
  | n + 1 => do
    match ← peek with
    | some c =>
      if p c then
        advance
        return c :: (← takeWhile p n)
      else return []
    | none => return []

def remaining : Reader Nat := do return (← get).rest.length

def skipComment : Reader Unit := modify fun s => { s with rest := s.rest.dropWhile (· ≠ '\n') }

def giveBack (t : Token) : Reader Unit := modify fun s => { s with returned := some t }

/-- Asks for a document. -/
def await (mark : List Char) (stripped literal : Bool) : Reader Nat := do
  let s ← get
  let asked : Awaited := { number := s.nextDocument, mark, stripped, literal }
  set { s with awaited := s.awaited ++ [asked], nextDocument := s.nextDocument + 1 }
  return s.nextDocument

/-- The mark of a document stands on the line that begins here; if so, moves past it. Tabs
    are left out first where they are to be. -/
def atMark (a : Awaited) : Reader Bool := do
  if a.stripped then modify fun s => { s with rest := s.rest.dropWhile (· = '\t') }
  let s ← get
  if a.mark.isPrefixOf s.rest then
    match s.rest.drop a.mark.length with
    | [] =>
      set { s with rest := [] }
      return true
    | '\n' :: rest =>
      set { s with rest, line := s.line + 1 }
      return true
    | _ => return false
  else return false

end Reader

end Gauntlet.Shell
