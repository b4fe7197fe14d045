import Gauntlet.Yaml.Lexeme

/-! # The stream of tokens

  Tokens are fetched only when they are wanted, but always so far ahead that two
  more follow the one in front: a fault among those is noticed early. A scalar, tag
  or anchor may turn out to be a mapping key when `:` follows, so the places where
  a key may have begun are remembered; once a key is found, its token is put in
  front of what was fetched since.
-/

namespace Gauntlet.Yaml

/-- The place on a level of nesting where a mapping key may have begun. -/
structure KeyPlace where
  /-- A key may still have begun there. -/
  possible : Bool := false
  /-- Without `:` after it the document is faulty. -/
  required : Bool := false
  /-- The number of the token that would follow the key's token. -/
  number : Nat := 0
  mark : Mark := {}
  deriving Inhabited

/-- The tokens fetched and the state of fetching. -/
structure TokenStream where
  cursor : Cursor
  /-- The tokens fetched and not yet taken. -/
  tokens : List Token := []
  /-- The number of tokens taken. -/
  taken : Nat := 0
  started : Bool := false
  flowLevel : Nat := 0
  /-- The column of the current block collection. -/
  indent : Int := -1
  /-- The columns of the collections around it. -/
  indents : List Int := []
  /-- A key may begin here. -/
  keyAllowed : Bool := false
  /-- The place of a key on each level, innermost first. -/
  keys : List KeyPlace := []
  /-- For each token number that may follow a key: the level of that key. -/
  keyLevels : List (Nat × Nat) := []
  deriving Inhabited

namespace TokenStream

def ofReading (r : Reading) : TokenStream :=
  { cursor := .ofReading r }

def mark (s : TokenStream) : Mark := s.cursor.mark

/-- A fault at the cursor that concerns this place only. -/
def faultHere (s : TokenStream) (problem : Text) : Fault := .ofLexeme s.mark s.mark problem

/-- The collections may not be nested deeper. -/
def maxDepth : Nat := 10000

def push (s : TokenStream) (k : TokenKind) (start stop : Mark) : TokenStream :=
  { s with tokens := s.tokens ++ [⟨k, start, stop⟩] }

/-- The stream with a token before the one with a given number, or at its end if that one
    has been taken already. -/
def insertAt (s : TokenStream) (number : Nat) (t : Token) : TokenStream :=
  let n := if number < s.taken then s.tokens.length else number - s.taken
  { s with tokens := s.tokens.take n ++ t :: s.tokens.drop n }

/-! ### Possible keys -/

def missingColon (s : TokenStream) (k : KeyPlace) : Fault :=
  .ofLexeme k.mark s.mark "could not find expected ':'"

/-- The key began in this line and not too far back. -/
def isNear (s : TokenStream) (k : KeyPlace) : Bool :=
  !(k.mark.line < s.mark.line || k.mark.index + 1024 < s.mark.index)

/-- The place of a key on a level counted from the outside. -/
def keyAt (s : TokenStream) (level : Nat) : KeyPlace := (s.keys.reverse[level]?).getD {}

/-- The stream without the possibility of a key on a level. -/
def excludeKeyAt (s : TokenStream) (level : Nat) : TokenStream :=
  { s with keys := (s.keys.reverse.modify level fun k => { k with possible := false }).reverse }

/-- The stream in which a token is not known to follow a key. -/
def forgetLevel (s : TokenStream) (number : Nat) : TokenStream :=
  { s with keyLevels := s.keyLevels.filter fun p => p.1 ≠ number }

/-- Whether the key on a level is still possible. -/
def keyIsValid (s : TokenStream) (level : Nat) : Except Fault (Bool × TokenStream) :=
  let k := s.keyAt level
  if !k.possible then .ok (false, s)
  else if s.isNear k then .ok (true, s)
  else if k.required then .error (s.missingColon k)
  else .ok (false, s.excludeKeyAt level)

def removeKey (s : TokenStream) : Except Fault TokenStream :=
  match s.keys with
  | k :: rest =>
    if !k.possible then .ok s
    else if k.required then .error (s.missingColon k)
    else .ok ({ s with keys := { k with possible := false } :: rest }.forgetLevel k.number)
  | [] => .ok s

def nextNumber (s : TokenStream) : Nat := s.taken + s.tokens.length

/-- Remembers that a key may begin here. -/
def saveKey (s : TokenStream) : Except Fault TokenStream := do
  if !s.keyAllowed then return s
  else
    let k : KeyPlace := {
      possible := true
      required := s.flowLevel = 0 && s.indent = s.mark.column
      number := s.nextNumber
      mark := s.mark }
    let s ← s.removeKey
    let s := s.forgetLevel k.number
    return { s with
      keys := k :: s.keys.drop 1
      keyLevels := (k.number, s.keys.length - 1) :: s.keyLevels }

/-! ### Nesting -/

/-- The fault of too deep nesting, which goes by the innermost place of a key. -/
def tooDeep (s : TokenStream) : Fault :=
  .ofLexeme (s.keys.headD {}).mark s.mark ("exceeded max depth of " ++ Numeral.ofNat maxDepth)

/-- Enters a flow collection. Until a key is saved inside it, the new level goes by the
    number of the token that opens the collection. -/
def openFlow (s : TokenStream) : Except Fault TokenStream :=
  let s := { s with
    keys := { number := s.nextNumber, mark := s.mark } :: s.keys
    flowLevel := s.flowLevel + 1 }
  if maxDepth < s.flowLevel then .error s.tooDeep else .ok s

/-- Leaves a flow collection; the token that its level goes by is no longer known to
    follow a key. -/
def closeFlow (s : TokenStream) : TokenStream :=
  match s.flowLevel, s.keys with
  | n + 1, k :: rest => { s.forgetLevel k.number with flowLevel := n, keys := rest }
  | _, _ => s

/-- Starts a block collection if the column is deeper than the current one; its
    token goes before the one with the given number, or at the end. -/
def indentTo (s : TokenStream) (column : Nat) (number : Option Nat) (k : TokenKind) (m : Mark) :
    Except Fault TokenStream :=
  if 0 < s.flowLevel then .ok s
  else if s.indent < column then
    let s := { s with indents := s.indent :: s.indents, indent := column }
    if maxDepth < s.indents.length then .error s.tooDeep
    else .ok (match number with
      | some n => s.insertAt n ⟨k, m, m⟩
      | none => s.push k m m)
  else .ok s

/-- Ends the block collections that are deeper than a column. -/
def dedentTo (column : Int) (m : Mark) : (fuel : Nat) → TokenStream → TokenStream
  | 0, s => s
  | k + 1, s =>
    if 0 < s.flowLevel then s
    else if column < s.indent then
      let s := s.push .blockEnd m m
      dedentTo column m k { s with indent := s.indents.headD (-1), indents := s.indents.drop 1 }
    else s

/-- Ends the block collections that are deeper than a column. -/
def dedent (s : TokenStream) (column : Int) (m : Mark) : TokenStream :=
  dedentTo column m (s.indents.length + 1) s

/-! ### Space between tokens -/

/-- Passes over blanks; tabs count as blanks only where no key may begin. -/
def skipSpaces (tabs : Bool) : (fuel : Nat) → Cursor → Cursor
  | 0, c => c
  | k + 1, c =>
    if c.next = ' ' || (tabs && c.next = '\t') then skipSpaces tabs k c.skip else c

/-- Passes over blanks, comments and line breaks to the next token. -/
def toNextToken : (fuel : Nat) → TokenStream → Except Fault TokenStream
  | 0, s => .ok s
  | k + 1, s => do
    let c ← s.cursor.want 1
    let c := if c.column = 0 && c.marked then c.skip else c
    let c ← (skipSpaces (0 < s.flowLevel || !s.keyAllowed) (c.rest.length + 1) c).want 1
    let c ← if c.next = '#' then c.skipComments (c.room + 1) 0 else pure c
    if isBreak c.next then
      toNextToken k { s with
        cursor := (← c.want 2).skipBreak
        keyAllowed := s.keyAllowed || s.flowLevel = 0 }
    else return { s with cursor := c }

/-! ### Fetching -/

/-- The stream with an indicator of `n` characters passed over and its token added. -/
def indicator (s : TokenStream) (k : TokenKind) (n : Nat) : TokenStream :=
  let start := s.mark
  let c := s.cursor.skips n
  { s with cursor := c }.push k start c.mark

def fetchEnd (s : TokenStream) : Except Fault TokenStream := do
  let m := s.mark
  let m := if m.column = 0 then m else { m with column := 0, line := m.line + 1 }
  let s := { s with cursor := { s.cursor with mark := m } }.dedent (-1) m
  let s ← s.removeKey
  return { s with keyAllowed := false }.push .streamEnd m m

def fetchDirective (s : TokenStream) : Except Fault TokenStream := do
  let s ← (s.dedent (-1) s.mark).removeKey
  let (t, c) ← readDirective s.cursor
  return { s with keyAllowed := false, cursor := c, tokens := s.tokens ++ [t] }

def fetchMarker (s : TokenStream) (k : TokenKind) : Except Fault TokenStream := do
  let s ← (s.dedent (-1) s.mark).removeKey
  return { s with keyAllowed := false }.indicator k 3

def fetchFlowStart (s : TokenStream) (k : TokenKind) : Except Fault TokenStream := do
  let s ← s.saveKey
  let s ← s.openFlow
  return { s with keyAllowed := true }.indicator k 1

def fetchFlowEnd (s : TokenStream) (k : TokenKind) : Except Fault TokenStream := do
  let s ← s.removeKey
  return { s.closeFlow with keyAllowed := false }.indicator k 1

def fetchFlowEntry (s : TokenStream) : Except Fault TokenStream := do
  let s ← s.removeKey
  return { s with keyAllowed := true }.indicator .flowEntry 1

/-- Fetches `-` before an item of a block sequence. -/
def fetchBlockEntry (s : TokenStream) : Except Fault TokenStream := do
  let s ←
    if s.flowLevel = 0 then
      if !s.keyAllowed then
        throw (s.faultHere "block sequence entries are not allowed in this context")
      else s.indentTo s.mark.column none .blockSequenceStart s.mark
    else pure s
  let s ← s.removeKey
  return { s with keyAllowed := true }.indicator .blockEntry 1

def fetchKey (s : TokenStream) : Except Fault TokenStream := do
  let s ←
    if s.flowLevel = 0 then
      if !s.keyAllowed then throw (s.faultHere "mapping keys are not allowed in this context")
      else s.indentTo s.mark.column none .blockMappingStart s.mark
    else pure s
  let s ← s.removeKey
  return { s with keyAllowed := s.flowLevel = 0 }.indicator .key 1

def fetchValue (s : TokenStream) : Except Fault TokenStream := do
  let level := s.keys.length - 1
  let (valid, s) ← s.keyIsValid level
  if valid then
    let k := s.keyAt level
    let s := s.insertAt k.number ⟨.key, k.mark, k.mark⟩
    let s ← s.indentTo k.mark.column (some k.number) .blockMappingStart k.mark
    let s := (s.excludeKeyAt level).forgetLevel k.number
    return { s with keyAllowed := false }.indicator .value 1
  else
    let s ←
      if s.flowLevel = 0 then
        if !s.keyAllowed then
          throw (s.faultHere "mapping values are not allowed in this context")
        else s.indentTo s.mark.column none .blockMappingStart s.mark
      else pure s
    return { s with keyAllowed := s.flowLevel = 0 }.indicator .value 1

def fetchName (s : TokenStream) (k : List Char → TokenKind) : Except Fault TokenStream := do
  let s ← s.saveKey
  let start := s.mark
  let (name, c) ← readName s.cursor
  return { s with keyAllowed := false, cursor := c }.push (k name) start c.mark

def fetchTag (s : TokenStream) : Except Fault TokenStream := do
  let s ← s.saveKey
  let start := s.mark
  let ((handle, suffix), c) ← readTag s.cursor
  return { s with keyAllowed := false, cursor := c }.push (.tag handle suffix) start c.mark

def fetchBlock (s : TokenStream) (literal : Bool) : Except Fault TokenStream := do
  let s ← s.removeKey
  let start := s.mark
  let ((text, stop), c) ← readBlock literal s.indent s.cursor
  return { s with keyAllowed := true, cursor := c }.push
    (.scalar text (if literal then .literal else .folded)) start stop

def fetchQuoted (s : TokenStream) (single : Bool) : Except Fault TokenStream := do
  let s ← s.saveKey
  let start := s.mark
  let (text, c) ← quotedWords single start (s.cursor.rest.length + 1) [] s.cursor.skip
  return { s with keyAllowed := false, cursor := c }.push
    (.scalar text.reverse (if single then .singleQuoted else .doubleQuoted)) start c.mark

def fetchPlain (s : TokenStream) : Except Fault TokenStream := do
  let s ← s.saveKey
  let start := s.mark
  let (p, c) ← plainWords (0 < s.flowLevel) (s.indent + 1).toNat start (s.cursor.rest.length + 1)
    { stop := start } s.cursor
  return { s with keyAllowed := p.gap.broken, cursor := c }.push
    (.scalar p.text.reverse .plain) start p.stop

/-- A plain scalar may begin here. -/
def startsPlain (s : TokenStream) : Bool :=
  let x := s.cursor.next
  let y := s.cursor.ahead 1
  !(isBlankOrEnd x || "-?:,[]\x7b\x7d#&*!|>'\"%@`".toList.contains x) ||
  (x = '-' && !isBlank y) ||
  (s.flowLevel = 0 && (x = '?' || x = ':') && !isBlankOrEnd y)

/-- The stream without the comment in the rest of the line, unless the last token is
    `-`, whose comment belongs to what follows. -/
def passLineComment (s : TokenStream) : Except Fault TokenStream := do
  match s.tokens.getLast? with
  | some ⟨.blockEntry, _, _⟩ => return s
  | _ => return { s with cursor := (← s.cursor.skipLineComment) }

/-- Fetches the token that begins with the next character. -/
def fetchContent (s : TokenStream) : Except Fault TokenStream :=
  let x := s.cursor.next
  let spaced := isBlankOrEnd (s.cursor.ahead 1)
  let flow := 0 < s.flowLevel
  if x = '[' then s.fetchFlowStart .flowSequenceStart
  else if x = '\x7b' then s.fetchFlowStart .flowMappingStart
  else if x = ']' then s.fetchFlowEnd .flowSequenceEnd
  else if x = '\x7d' then s.fetchFlowEnd .flowMappingEnd
  else if x = ',' then s.fetchFlowEntry
  else if x = '-' && spaced then s.fetchBlockEntry
  else if x = '?' && (flow || spaced) then s.fetchKey
  else if x = ':' && (flow || spaced) then s.fetchValue
  else if x = '*' then s.fetchName .reference
  else if x = '&' then s.fetchName .anchor
  else if x = '!' then s.fetchTag
  else if x = '|' && !flow then s.fetchBlock true
  else if x = '>' && !flow then s.fetchBlock false
  else if x = '\'' then s.fetchQuoted true
  else if x = '"' then s.fetchQuoted false
  else if s.startsPlain then s.fetchPlain
  else .error (s.faultHere "found character that cannot start any token")

def fetch (s : TokenStream) : Except Fault TokenStream := do
  let s := { s with cursor := (← s.cursor.want 1) }
  if !s.started then
    return { s with started := true, keyAllowed := true, keys := [{}] }.push .streamStart
      s.mark s.mark
  else
    let before := s.mark
    let s ← toNextToken (s.cursor.room + 1) s
    let s := s.dedent s.mark.column before
    let c ← s.cursor.want 4
    let s := { s with cursor := c }
    if c.next = nul then s.fetchEnd
    else if c.column = 0 && c.next = '%' then s.fetchDirective
    else if c.atMarker '-' then s.fetchMarker .documentStart
    else if c.atMarker '.' then s.fetchMarker .documentEnd
    else
      let s ← s.fetchContent
      s.passLineComment

/-- Fetches tokens until two more follow the one in front and it is known whether a
    key comes first. -/
def fill : (fuel : Nat) → TokenStream → Except Fault TokenStream
  | 0, s => .ok s
  | k + 1, s => do
    if 2 < s.tokens.length then
      match s.keyLevels.lookup s.taken with
      | none => return s
      | some level =>
        let (valid, s) ← s.keyIsValid level
        if valid then fill k (← s.fetch) else return s
    else fill k (← s.fetch)

def peek (s : TokenStream) : Except Fault (Token × TokenStream) := do
  let s ← fill (s.cursor.room + 8) s
  match s.tokens with
  | t :: _ => return (t, s)
  | [] => .error (s.faultHere "unknown problem parsing YAML content")

def putOff? (s : TokenStream) : Option Fault := if s.cursor.putOff then s.cursor.fault else none

def take (s : TokenStream) : TokenStream :=
  { s with tokens := s.tokens.drop 1, taken := s.taken + 1 }

end TokenStream

end Gauntlet.Yaml
