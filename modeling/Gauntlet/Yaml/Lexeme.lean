import Gauntlet.Yaml.Token

/-! # Lexemes

  The parts of a token that are longer than an indicator: scalars in their five
  styles, anchors and aliases, tags and directives. Each function reads one lexeme
  from a cursor and gives its value and the cursor after it.

  Line breaks inside plain and quoted scalars are folded: a single one becomes a
  space, and of several the first is dropped.
-/

namespace Gauntlet.Yaml

/-! ### Space between words -/

/-- The space between two words of a scalar. -/
structure Gap where
  /-- Blanks, in reverse, as long as no line break was met. -/
  blanks : List Char := []
  /-- The first line break. -/
  first : List Char := []
  /-- The other line breaks. -/
  more : List Char := []
  /-- A line break was met. -/
  broken : Bool := false

def Gap.text (g : Gap) : List Char :=
  if g.broken then
    if g.first.head? = some '\n' then if g.more = [] then [' '] else g.more
    else g.first ++ g.more
  else g.blanks.reverse

/-- Reads the rest of a gap; `tabs` forbids tabs in the indentation. -/
def readGap (tabs : Cursor → Except Fault Unit) : (fuel : Nat) → Gap → Cursor → Except Fault (Gap × Cursor)
  | 0, g, c => .ok (g, c)
  | k + 1, g, c => do
    let c ← c.want 1
    if isBlank c.next then
      if g.broken && c.next = '\t' then tabs c
      readGap tabs k (if g.broken then g else { g with blanks := c.next :: g.blanks }) c.skip
    else if isBreak c.next then
      let (b, c') := (← c.want 2).takeBreak
      readGap tabs k
        (if g.broken then { g with more := g.more ++ b }
        else { g with blanks := [], first := b, broken := true }) c'
    else .ok (g, c)

/-! ### Plain scalars -/

/-- A plain scalar in the making. -/
structure Plain where
  /-- The text so far, in reverse. -/
  text : List Char := []
  gap : Gap := {}
  stop : Mark

def endsPlain (flow : Bool) (c : Cursor) : Bool :=
  (c.next = ':' && isBlankOrEnd (c.ahead 1)) ||
  (flow && (",?[]\x7b\x7d".toList.contains c.next))

def plainWord (flow : Bool) : (fuel : Nat) → Plain → Cursor → Except Fault (Plain × Cursor)
  | 0, p, c => .ok (p, c)
  | k + 1, p, c => do
    let c ← c.want 2
    if isBlankOrEnd c.next || endsPlain flow c then .ok (p, c)
    else
      let c' := c.skip
      plainWord flow k
        { text := c.next :: (p.gap.text.reverse ++ p.text), gap := {}, stop := c'.mark } c'

/-- Reads words and gaps until the scalar ends. -/
def plainWords (flow : Bool) (indent : Nat) (start : Mark) :
    (fuel : Nat) → Plain → Cursor → Except Fault (Plain × Cursor)
  | 0, p, c => .ok (p, c)
  | k + 1, p, c => do
    let c ← c.want 4
    if c.atDocumentMarker || c.next = '#' then .ok (p, c)
    else
      let (p, c) ← plainWord flow (c.rest.length + 1) p c
      if !(isBlank c.next || isBreak c.next) then .ok (p, c)
      else
        let tabs (c : Cursor) : Except Fault Unit :=
          if c.column < indent then
            .error (.ofLexeme start c.mark "found a tab character that violates indentation")
          else .ok ()
        let (gap, c) ← readGap tabs (c.rest.length + 1) p.gap c
        let p := { p with gap }
        if !flow && c.column < indent then .ok (p, c) else plainWords flow indent start k p c

/-! ### Quoted scalars -/

def escape? (c : Char) : Option Char :=
  match c with
  | '0' => some '\x00'
  | 'a' => some '\x07'
  | 'b' => some '\x08'
  | 't' | '\t' => some '\t'
  | 'n' => some '\n'
  | 'v' => some '\x0b'
  | 'f' => some '\x0c'
  | 'r' => some '\r'
  | 'e' => some '\x1b'
  | ' ' => some ' '
  | '"' => some '"'
  | '\'' => some '\''
  | '\\' => some '\\'
  | 'N' => some '\u0085'
  | '_' => some '\u00a0'
  | 'L' => some '\u2028'
  | 'P' => some '\u2029'
  | _ => none

/-- The number of digits after a numeric escape. -/
def escapeWidth? (c : Char) : Option Nat :=
  match c with
  | 'x' => some 2
  | 'u' => some 4
  | 'U' => some 8
  | _ => none

def hexValue? (c : Char) : Option Nat :=
  if c.isDigit then some (c.toNat - 48)
  else if 'a' ≤ c ∧ c ≤ 'f' then some (c.toNat - 87)
  else if 'A' ≤ c ∧ c ≤ 'F' then some (c.toNat - 55)
  else none

def hexNumber (c : Cursor) (digits : Nat) : Option Nat :=
  (List.range digits).foldl (fun acc i => do return (← acc) * 16 + (← hexValue? (c.ahead i))) (some 0)

/-- Reads an escape; the cursor stands at the backslash. -/
def readEscape (start : Mark) (c : Cursor) : Except Fault (Char × Cursor) := do
  match escape? (c.ahead 1), escapeWidth? (c.ahead 1) with
  | some x, _ => .ok (x, c.skips 2)
  | none, none => .error (.ofLexeme start c.mark "found unknown escape character")
  | none, some n =>
    let c ← (c.skips 2).want n
    match hexNumber c n with
    | none => .error (.ofLexeme start c.mark "did not find expected hexdecimal number")
    | some v =>
      if (0xD800 ≤ v ∧ v ≤ 0xDFFF) ∨ 0x10FFFF < v then
        .error (.ofLexeme start c.mark "found invalid Unicode character escape code")
      else .ok (Char.ofNat v, c.skips n)

/-- Reads one word of a quoted scalar; tells whether an escaped line break ended it. -/
def quotedWord (single : Bool) (start : Mark) :
    (fuel : Nat) → (text : List Char) → Cursor → Except Fault ((List Char × Bool) × Cursor)
  | 0, text, c => .ok ((text, false), c)
  | k + 1, text, c => do
    let c ← c.want 2
    if isBlankOrEnd c.next then .ok ((text, false), c)
    else if single && c.next = '\'' then
      if c.ahead 1 = '\'' then quotedWord single start k ('\'' :: text) (c.skips 2)
      else .ok ((text, false), c)
    else if !single && c.next = '"' then .ok ((text, false), c)
    else if !single && c.next = '\\' then
      if isBreak (c.ahead 1) then .ok ((text, true), (← c.want 3).skip.skipBreak)
      else
        let (x, c) ← readEscape start c
        quotedWord single start k (x :: text) c
    else quotedWord single start k (c.next :: text) c.skip

/-- Reads words and gaps up to the closing quote. -/
def quotedWords (single : Bool) (start : Mark) :
    (fuel : Nat) → (text : List Char) → Cursor → Except Fault (List Char × Cursor)
  | 0, text, c => .ok (text, c)
  | k + 1, text, c => do
    let c ← c.want 4
    if c.atDocumentMarker then
      .error (.ofLexeme start c.mark "found unexpected document indicator")
    else if c.next = nul then
      .error (.ofLexeme start c.mark "found unexpected end of stream")
    else
      let ((text, broken), c) ← quotedWord single start (c.rest.length + 1) text c
      let c ← c.want 1
      if c.next = (if single then '\'' else '"') then .ok (text, c.skip)
      else
        let (gap, c) ← readGap (fun _ => .ok ()) (c.rest.length + 1) { broken } c
        quotedWords single start k (gap.text.reverse ++ text) c

/-! ### Block scalars -/

/-- What happens to the line breaks at the end of a block scalar. -/
inductive Chomping where
  | strip
  | clip
  | keep
  deriving DecidableEq

def readChomping (c : Cursor) : Option (Chomping × Cursor) :=
  if c.next = '+' then some (.keep, c.skip)
  else if c.next = '-' then some (.strip, c.skip)
  else none

def readIncrement (start : Mark) (c : Cursor) : Except Fault (Option Nat × Cursor) :=
  if !c.next.isDigit then .ok (none, c)
  else if c.next = '0' then
    .error (.ofLexeme start c.mark "found an indentation indicator equal to 0")
  else .ok (some (c.next.toNat - 48), c.skip)

/-- Reads the marks after the indicator of a block scalar, in either order. -/
def readHeader (start : Mark) (c : Cursor) : Except Fault ((Chomping × Option Nat) × Cursor) := do
  let c ← c.want 1
  match readChomping c with
  | some (chomping, c) =>
    let (n, c) ← readIncrement start (← c.want 1)
    return ((chomping, n), c)
  | none =>
    let (n, c) ← readIncrement start c
    if n.isSome then
      match readChomping (← c.want 1) with
      | some (chomping, c) => return ((chomping, n), c)
      | none => return ((.clip, n), c)
    else return ((.clip, none), c)

def skipBlanks : (fuel : Nat) → Cursor → Cursor
  | 0, c => c
  | k + 1, c => if isBlank c.next then skipBlanks k c.skip else c

/-- Passes over the rest of a line. -/
def skipToBreak : (fuel : Nat) → Cursor → Cursor
  | 0, c => c
  | k + 1, c => if isBreakOrEnd c.next then c else skipToBreak k c.skip

/-- Passes over spaces that belong to the indentation; zero means that it is not
    known yet. -/
def skipIndent (indent : Nat) : (fuel : Nat) → Cursor → Cursor
  | 0, c => c
  | k + 1, c =>
    if (indent = 0 || c.column < indent) && c.next = ' ' then skipIndent indent k c.skip else c

/-- Passes over indentation and empty lines: the line breaks, the deepest
    indentation and the place after the last break. -/
def skipEmptyLines (indent : Nat) (start : Mark) :
    (fuel : Nat) → (breaks : List Char) → (deepest : Nat) → (stop : Mark) → Cursor →
      Except Fault ((List Char × Nat × Mark) × Cursor)
  | 0, breaks, deepest, stop, c => .ok ((breaks, deepest, stop), c)
  | k + 1, breaks, deepest, stop, c => do
    let c ← (skipIndent indent (c.rest.length + 1) c).want 1
    let deepest := max deepest c.column
    if (indent = 0 || c.column < indent) && c.next = '\t' then
      .error (.ofLexeme start c.mark "found a tab character where an indentation space is expected")
    else if !isBreak c.next then .ok ((breaks, deepest, stop), c)
    else
      let (b, c) := (← c.want 2).takeBreak
      skipEmptyLines indent start k (breaks ++ b) deepest c.mark c

/-- A block scalar in the making. -/
structure Block where
  /-- The text so far, in reverse. -/
  text : List Char := []
  /-- The line break that ended the last line. -/
  first : List Char := []
  /-- The line breaks of the empty lines after it. -/
  more : List Char := []
  /-- The last line began with a blank. -/
  indented : Bool := false
  stop : Mark

/-- Reads a line up to its break, adding it to a text in reverse. -/
def takeLine : (fuel : Nat) → (text : List Char) → Cursor → List Char × Cursor
  | 0, text, c => (text, c)
  | k + 1, text, c =>
    if isBreakOrEnd c.next then (text, c) else takeLine k (c.next :: text) c.skip

def blockLines (literal : Bool) (indent : Nat) (start : Mark) :
    (fuel : Nat) → Block → Cursor → Except Fault (Block × Cursor)
  | 0, b, c => .ok (b, c)
  | k + 1, b, c => do
    if c.column ≠ indent || c.next = nul then .ok (b, c)
    else
      let blank := isBlank c.next
      let lead :=
        if !literal && !b.indented && !blank && b.first.head? = some '\n' then
          if b.more = [] then [' '] else []
        else b.first
      let text := b.more.reverse ++ lead.reverse ++ b.text
      let (text, c) := takeLine (c.rest.length + 1) text c
      let (first, c) := (← c.want 2).takeBreak
      let ((more, _, stop), c) ← skipEmptyLines indent start (c.rest.length + 1) [] 0 c.mark c
      blockLines literal indent start k { text, first, more, indented := blank, stop } c

/-- Reads a block scalar; the cursor stands at its indicator. -/
def readBlock (literal : Bool) (indent : Int) (c : Cursor) : Except Fault ((List Char × Mark) × Cursor) := do
  let start := c.mark
  let ((chomping, increment), c) ← readHeader start c.skip
  let c ← (skipBlanks (c.rest.length + 1) c).want 1
  let c ←
    if c.next = '#' then do
      let c ← c.skipLineComment
      (skipToBreak (c.rest.length + 1) c).want 1
    else pure c
  if !isBreakOrEnd c.next then
    .error (.ofLexeme start c.mark "did not find expected comment or line break")
  else
    let c ← if isBreak c.next then (·.skipBreak) <$> c.want 2 else pure c
    let given : Nat := match increment with
      | some n => if 0 ≤ indent then indent.toNat + n else n
      | none => 0
    let ((more, deepest, stop), c) ← skipEmptyLines given start (c.rest.length + 1) [] 0 c.mark c
    let depth := if given = 0 then max (max deepest (indent + 1).toNat) 1 else given
    let (b, c) ← blockLines literal depth start (c.rest.length + 1) { more, stop } c
    let tail := match chomping with
      | .strip => []
      | .clip => b.first
      | .keep => b.first ++ b.more
    return ((b.text.reverse ++ tail, b.stop), c)

/-! ### Names and tags -/

/-- Reads the characters of a name. -/
def takeWord : (fuel : Nat) → (text : List Char) → Cursor → Except Fault (List Char × Cursor)
  | 0, text, c => .ok (text.reverse, c)
  | k + 1, text, c => do
    let c ← c.want 1
    if isWord c.next then takeWord k (c.next :: text) c.skip else return (text.reverse, c)

/-- Reads the name of an anchor or alias; the cursor stands at the indicator. -/
def readName (c : Cursor) : Except Fault (List Char × Cursor) := do
  let start := c.mark
  let (name, c) ← takeWord (c.rest.length + 1) [] c.skip
  if name = [] || !(isBlankOrEnd c.next || "?:,]\x7d%@`".toList.contains c.next) then
    .error (.ofLexeme start c.mark "did not find expected alphabetic or numeric character")
  else .ok (name, c)

def isTagChar (c : Char) : Bool := isWord c || ";/?:@&=+$,.!~*'()[]%".toList.contains c

/-- The value of one escaped byte; the cursor stands at the percent sign. -/
def escapedByte? (c : Cursor) : Option Nat :=
  if c.next = '%' then do return (← hexValue? (c.ahead 1)) * 16 + (← hexValue? (c.ahead 2)) else none

/-- Reads the continuation bytes of an escaped character. -/
def escapedTail (start : Mark) : (n : Nat) → (acc : List UInt8) → Cursor → Except Fault (List UInt8 × Cursor)
  | 0, acc, c => .ok (acc.reverse, c)
  | n + 1, acc, c => do
    let c ← c.want 3
    match escapedByte? c with
    | none => .error (.ofLexeme start c.mark "did not find URI escaped octet")
    | some b =>
      if b / 64 ≠ 2 then .error (.ofLexeme start c.mark "found an incorrect trailing UTF-8 octet")
      else escapedTail start n (b.toUInt8 :: acc) (c.skips 3)

def readEscaped (start : Mark) (c : Cursor) : Except Fault (List Char × Cursor) := do
  let c ← c.want 3
  match escapedByte? c with
  | none => .error (.ofLexeme start c.mark "did not find URI escaped octet")
  | some b =>
    match Reading.sequenceLength b.toUInt8 with
    | 0 => .error (.ofLexeme start c.mark "found an incorrect leading UTF-8 octet")
    | n + 1 =>
      match escapedTail start n [b.toUInt8] (c.skips 3) with
      | .error f => .error f
      | .ok (bytes, c) => .ok ((Text.glyphs bytes).map Text.Glyph.shown, c)

/-- Reads tag characters, adding them to a text in reverse. -/
def tagChars (start : Mark) : (fuel : Nat) → (text : List Char) → Cursor → Except Fault (List Char × Cursor)
  | 0, text, c => .ok (text.reverse, c)
  | k + 1, text, c => do
    let c ← c.want 1
    if !isTagChar c.next then .ok (text.reverse, c)
    else if c.next = '%' then
      let (cs, c) ← readEscaped start c
      tagChars start k (cs.reverse ++ text) c
    else tagChars start k (c.next :: text) c.skip

/-- Reads the rest of a tag after `head`, whose first character is left out. -/
def readTagRest (head : List Char) (start : Mark) (c : Cursor) : Except Fault (List Char × Cursor) := do
  let (text, c') ← tagChars start (c.rest.length + 1) (head.drop 1).reverse c
  if head = [] && c'.mark.index = c.mark.index then
    .error (.ofLexeme start c'.mark "did not find expected tag URI")
  else return (text, c')

/-- Reads a tag handle: `!`, `!!` or `!name!`, or what may be the start of a tag. -/
def readHandle (directive : Bool) (start : Mark) (c : Cursor) : Except Fault (List Char × Cursor) := do
  if c.next ≠ '!' then .error (.ofLexeme start c.mark "did not find expected '!'")
  else
    let (name, c) ← takeWord (c.rest.length + 1) [] c.skip
    if c.next = '!' then .ok ('!' :: name ++ ['!'], c.skip)
    else if directive && name ≠ [] then .error (.ofLexeme start c.mark "did not find expected '!'")
    else .ok ('!' :: name, c)

def readTag (c : Cursor) : Except Fault ((List Char × List Char) × Cursor) := do
  let start := c.mark
  let c ← c.want 2
  let ((handle, suffix), c) ← (do
    if c.ahead 1 = '<' then
      let (suffix, c) ← readTagRest [] start (c.skips 2)
      if c.next ≠ '>' then
        throw (Fault.ofLexeme start c.mark "did not find the expected '>'")
      return (([], suffix), c.skip)
    else
      let (handle, c) ← readHandle false start c
      if 1 < handle.length && handle.getLast? = some '!' then
        let (suffix, c) ← readTagRest [] start c
        return ((handle, suffix), c)
      else
        let (suffix, c) ← readTagRest handle start c
        if suffix = [] then return (([], ['!']), c) else return ((['!'], suffix), c)
    : Except Fault ((List Char × List Char) × Cursor))
  let c ← c.want 1
  if !isBlankOrEnd c.next then
    .error (.ofLexeme start c.mark "did not find expected whitespace or line break")
  else return ((handle, suffix), c)

/-! ### Directives -/

/-- Reads a version number of at most two digits. -/
def versionNumber (start : Mark) : (digits : Nat) → (acc : Option Nat) → Cursor → Except Fault (Nat × Cursor)
  | n, acc, c => do
    let c ← c.want 1
    if c.next.isDigit then
      match n with
      | 0 => .error (.ofLexeme start c.mark "found extremely long version number")
      | n + 1 => versionNumber start n (some (acc.getD 0 * 10 + (c.next.toNat - 48))) c.skip
    else match acc with
      | none => .error (.ofLexeme start c.mark "did not find expected version number")
      | some v => .ok (v, c)

def readVersion (start : Mark) (c : Cursor) : Except Fault (TokenKind × Cursor) := do
  let (major, c) ← versionNumber start 2 none (skipBlanks (c.rest.length + 1) c)
  if c.next ≠ '.' then
    .error (.ofLexeme start c.mark "did not find expected digit or '.' character")
  else
    let (minor, c) ← versionNumber start 2 none c.skip
    return (.versionDirective major minor, c)

def readTagDirective (start : Mark) (c : Cursor) : Except Fault (TokenKind × Cursor) := do
  let (handle, c) ← readHandle true start (← (skipBlanks (c.rest.length + 1) c).want 1)
  let c ← c.want 1
  if !isBlank c.next then .error (.ofLexeme start c.mark "did not find expected whitespace")
  else
    let (lead, c) ← readTagRest [] start (skipBlanks (c.rest.length + 1) c)
    if !isBlankOrEnd c.next then
      .error (.ofLexeme start c.mark "did not find expected whitespace or line break")
    else return (.tagDirective handle lead, c)

/-- Reads a directive with its line; the cursor stands at the percent sign. -/
def readDirective (c : Cursor) : Except Fault (Token × Cursor) := do
  let start := c.mark
  let (name, c) ← takeWord (c.rest.length + 1) [] c.skip
  if name = [] then .error (.ofLexeme start c.mark "could not find expected directive name")
  else if !isBlankOrEnd c.next then
    .error (.ofLexeme start c.mark "found unexpected non-alphabetical character")
  else
    let (kind, c) ←
      if name = "YAML".toList then readVersion start c
      else if name = "TAG".toList then readTagDirective start c
      else .error (.ofLexeme start c.mark "found unknown directive name")
    let stop := c.mark
    let c ← (skipBlanks (c.rest.length + 1) c).want 1
    let c ← (if c.next = '#' then skipToBreak (c.rest.length + 1) c else c).want 1
    if !isBreakOrEnd c.next then
      .error (.ofLexeme start c.mark "did not find expected comment or line break")
    else
      let c ← if isBreak c.next then (·.skipBreak) <$> c.want 2 else pure c
      return (⟨kind, start, stop⟩, c)

end Gauntlet.Yaml
