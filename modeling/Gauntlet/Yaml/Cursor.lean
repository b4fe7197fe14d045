import Gauntlet.Yaml.Reading

/-! # A place in the characters of a document

  The cursor moves over characters and keeps count of lines and columns. Reading
  past the end gives the NUL character, which no document holds.

  Characters are loaded block by block, when more are wanted than are loaded. Whether
  the cursor stood at a byte order mark is noted at that moment only.

  Comments are passed over. A comment at the end of a line goes with the token
  before it, and comment lines that follow each other are passed over together with
  the blank space between them. A fault that is met while looking for a comment is
  put off.
-/

namespace Gauntlet.Yaml

/-- What remains to be read, and where it begins. -/
structure Cursor where
  rest : List Char
  mark : Mark := {}
  /-- The number of line breaks since the last character that is not blank. -/
  breaks : Nat := 0
  /-- The fault met at the end of the characters. -/
  fault : Option Fault := none
  /-- The characters before the fault in its block; they can be read only once the fault
      has been put off. -/
  spoilt : List Char := []
  /-- The fault has been met, but not reported. -/
  putOff : Bool := false
  /-- The indices at which the blocks end that are not loaded. -/
  ends : List Nat := []
  /-- The index up to which characters are loaded. -/
  loaded : Nat := 0
  /-- The cursor stood at a byte order mark when characters were last loaded. -/
  marked : Bool := false
  deriving Inhabited

/-- A space or a tab. -/
def isBlank (c : Char) : Bool := c = ' ' || c = '\t'

def isBreak (c : Char) : Bool :=
  c = '\n' || c = '\r' || c = '\u0085' || c = '\u2028' || c = '\u2029'

/-- The character after the last one. -/
def nul : Char := '\x00'

/-- A blank, a line break or the end. -/
def isBlankOrEnd (c : Char) : Bool := isBlank c || isBreak c || c = nul

def isBreakOrEnd (c : Char) : Bool := isBreak c || c = nul

/-- A character of a name: a letter, a digit, `_` or `-`. -/
def isWord (c : Char) : Bool := c.isAlphanum || c = '_' || c = '-'

namespace Cursor

/-- The character `n` places ahead. -/
def ahead (c : Cursor) (n : Nat) : Char := c.rest.getD n nul

def next (c : Cursor) : Char := c.ahead 0

def column (c : Cursor) : Nat := c.mark.column

/-- The number of characters that may still be met. -/
def room (c : Cursor) : Nat := c.rest.length + c.spoilt.length

/-- The start of the blocks of a document. -/
def ofReading (r : Reading) : Cursor where
  rest := r.chars
  fault := r.fault
  spoilt := r.spoilt
  ends := (r.lengths.foldl (fun (acc : List Nat) n => (acc.headD 0 + n) :: acc) []).reverse

/-- The index after the last character before the end or the fault. -/
def lastIndex (c : Cursor) : Nat := c.mark.index + c.rest.length

def atByteOrderMark (c : Cursor) : Bool := c.rest.head? = some '\ufeff'

/-- Loads blocks until `n` characters are there. Past the end of the characters each
    demand is met by one NUL more. -/
def load (n : Nat) (c : Cursor) : Cursor :=
  if c.mark.index + n ≤ c.loaded then c
  else match c.ends.dropWhile (· < c.mark.index + n) with
    | e :: ends => { c with loaded := e, ends, marked := c.atByteOrderMark }
    | [] => { c with
        loaded := if c.fault.isSome then c.lastIndex else max c.loaded c.lastIndex + 1
        ends := []
        marked := c.atByteOrderMark }

/-- The characters end in a fault, and there are not `n` of them before it. -/
def lacks (n : Nat) (c : Cursor) : Bool := c.fault.isSome && (c.rest.drop (n - 1)).isEmpty

/-- Loads `n` characters, or reports the fault that prevents it. -/
def want (n : Nat) (c : Cursor) : Except Fault Cursor :=
  match c.fault with
  | some f => if c.lacks n then .error f else .ok (c.load n)
  | none => .ok (c.load n)

/-- Loads `n` characters; a fault that prevents it is put off, and what comes before it
    in its block can then be read. -/
def peek (n : Nat) (c : Cursor) : Cursor :=
  if c.lacks n then
    let c := { c with rest := c.rest ++ c.spoilt, spoilt := [], putOff := true }
    { c with loaded := c.lastIndex, ends := [], marked := c.atByteOrderMark }
  else c.load n

/-- Passes over one character that is no line break. -/
def skip (c : Cursor) : Cursor :=
  match c.rest with
  | [] => c
  | x :: rest => { c with
      rest
      mark := { c.mark with index := c.mark.index + 1, column := c.mark.column + 1 }
      breaks := if isBlank x then c.breaks else 0 }.load 1

def skips (c : Cursor) : Nat → Cursor
  | 0 => c
  | n + 1 => c.skip.skips n

def skipBreak (c : Cursor) : Cursor :=
  let c := c.load 2
  let newLine (n : Nat) (rest : List Char) : Cursor := { c with
    rest
    mark := { index := c.mark.index + n, line := c.mark.line + 1, column := 0 }
    breaks := c.breaks + 1 }.load 1
  match c.rest with
  | '\r' :: '\n' :: rest => newLine 2 rest
  | x :: rest => if isBreak x then newLine 1 rest else c
  | [] => c

/-- The text of a line break: a line feed, or the separator itself. -/
def breakText (c : Cursor) : List Char :=
  match c.rest with
  | x :: _ => if x = '\u2028' ∨ x = '\u2029' then [x] else if isBreak x then ['\n'] else []
  | [] => []

/-- Passes over a line break, if one is there, and counts it in any case. -/
def takeBreak (c : Cursor) : List Char × Cursor :=
  let c' := c.skipBreak
  (c.breakText, { c' with breaks := c.breaks + 1 })

/-- Three given characters and a blank, a line break or the end, at the start of a
    line. -/
def atMarker (c : Cursor) (x : Char) : Bool :=
  c.column = 0 && c.next = x && c.ahead 1 = x && c.ahead 2 = x && isBlankOrEnd (c.ahead 3)

/-- A document marker, `---` or `...`. -/
def atDocumentMarker (c : Cursor) : Bool := c.atMarker '-' || c.atMarker '.'

/-- Passes over characters up to the index `seen`, and on to the end of that line. -/
def skipLineFrom (seen : Nat) : (fuel : Nat) → Cursor → Cursor
  | 0, c => c
  | k + 1, c =>
    if isBreakOrEnd c.next then
      if seen ≤ c.mark.index then c
      else match c.rest with
        | [] => c
        | _ => skipLineFrom seen k c.skipBreak
    else skipLineFrom seen k c.skip

/-- How far ahead a comment is looked for, in bytes. -/
def commentRange : Nat := 512

/-- The length of what stands at the beginning of a text and satisfies `p`, as far as a
    comment is looked for. -/
def extent (p : Char → Bool) (cs : List Char) : Nat := ((cs.take commentRange).takeWhile p).length

/-- Passes over the comment `n` characters ahead, up to the end of its line. -/
def skipComment (n : Nat) (c : Cursor) : Except Fault Cursor :=
  (skipLineFrom (c.mark.index + n) (c.rest.length + 1) c).want 1

/-- Passes over a comment in the rest of a line that holds a token; only blanks may come
    before it. -/
def skipLineComment (c : Cursor) : Except Fault Cursor :=
  if 0 < c.breaks then .ok c
  else
    let n := extent isBlank c.rest
    if n < commentRange then
      if c.ahead n = '#' then (c.peek (n + 1)).skipComment n else .ok (c.peek (n + 1))
    else .ok (c.peek commentRange)

/-- Passes over a comment and the comment lines after it; only blanks and line breaks of
    one byte may come between. The first `least` characters are known to be no comment. -/
def skipComments : (fuel : Nat) → (least : Nat) → Cursor → Except Fault Cursor
  | 0, _, c => .ok c
  | k + 1, least, c => do
    let n := extent (fun x => isBlank x || x = '\n' || x = '\r') c.rest
    if commentRange ≤ n then return c.peek commentRange
    else if c.ahead n = '#' then skipComments k 1 (← (c.peek (n + 1)).skipComment n)
    else return c.peek ((if isBreak (c.ahead n) then n + 1 else max n least) + 1)

end Cursor

end Gauntlet.Yaml
