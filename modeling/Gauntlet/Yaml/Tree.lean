import Gauntlet.Yaml.Scalar
import Gauntlet.Yaml.TokenStream

/-! # Trees

  A document is a tree of scalars, sequences and mappings. A node with an anchor
  can be referred to by aliases; an alias may even stand inside the node that it
  names, so trees refer to each other by number and not by containment.

  - `Tree` is a node with its tag and line.
  - `Document` is the tree of a document together with its anchored nodes.
-/

namespace Gauntlet.Yaml

inductive Tree where
  | scalar (tag : Text) (line : Nat) (value : Text)
  | sequence (tag : Text) (line : Nat) (items : List Tree)
  | mapping (tag : Text) (line : Nat) (pairs : List (Tree × Tree))
  /-- An alias: its own number, the name of the anchor and the number of the node
      that it stands for. -/
  | reference (line : Nat) (number : Nat) (name : Text) (target : Nat)
  deriving Inhabited

namespace Tree

def line : Tree → Nat
  | scalar _ l _ => l
  | sequence _ l _ => l
  | mapping _ l _ => l
  | reference l _ _ _ => l

def tag : Tree → Text
  | scalar t _ _ => t
  | sequence t _ _ => t
  | mapping t _ _ => t
  | reference _ _ _ _ => []

/-- The text of a node: the value of a scalar, the name of an alias. -/
def value : Tree → Text
  | scalar _ _ v => v
  | reference _ _ name _ => name
  | _ => []

inductive Kind where
  | scalar
  | sequence
  | mapping
  | reference
  deriving DecidableEq

def kind : Tree → Kind
  | scalar _ _ _ => .scalar
  | sequence _ _ _ => .sequence
  | mapping _ _ _ => .mapping
  | reference _ _ _ _ => .reference

/-- The tag of a scalar: the one written, else the one that its style and text
    imply. -/
def scalarTag (written : Text) (style : ScalarStyle) (value : Text) : Text :=
  if written ≠ [] ∧ written ≠ Text.single '!' then Tag.short written
  else if style ≠ .plain then Tag.str
  else if value = "<<" then Tag.merge
  else (Meaning.ofText true value).tag

/-- The tag of a collection: the one written, else the usual one. -/
def collectionTag (written usual : Text) : Text :=
  if written ≠ [] ∧ written ≠ Text.single '!' then Tag.short written else usual

end Tree

/-- The tree of a document and the nodes that aliases can refer to. -/
structure Document where
  root : Tree
  size : Nat
  anchored : List (Nat × Tree)
  deriving Inhabited

def Document.node? (d : Document) (n : Nat) : Option Tree := d.anchored.lookup n

/-! ### Building -/

/-- The state of building a document from tokens. -/
structure Builder where
  stream : TokenStream
  /-- What the handles of tags stand for. -/
  handles : List (List Char × List Char) := []
  /-- The number of the latest node with each anchor. -/
  anchors : List (Text × Nat) := []
  /-- The anchored nodes that are complete. -/
  anchored : List (Nat × Tree) := []
  /-- The number of nodes begun. -/
  count : Nat := 0
  deriving Inhabited

namespace Builder

def peek (b : Builder) : Except Fault (Token × Builder) := do
  let (t, stream) ← b.stream.peek
  return (t, { b with stream })

def take (b : Builder) : Builder := { b with stream := b.stream.take }

/-- Reports the fault that was put off while the last event was read. An event is the
    beginning or the end of a document or collection, or a node without parts. -/
def settle (b : Builder) : Except Fault Builder :=
  match b.stream.putOff? with
  | some f => .error f
  | none => .ok b

def event (b : Builder) : Except Fault (Token × Builder) := do (← b.settle).peek

/-- The token in front and its successor, after the first has been taken. -/
def next (b : Builder) : Except Fault (Token × Builder) := b.take.peek

/-! ### Directives -/

def defaultHandles : List (List Char × List Char) :=
  [(['!'], ['!']), (['!', '!'], "tag:yaml.org,2002:".toList)]

/-- A fault at a token that belongs to no construct. -/
def faultAt (t : Token) (problem : Text) : Fault := .ofToken {} t.start problem

/-- Reads the directives in front of a document. -/
def directives : (fuel : Nat) → (versioned : Bool) → Builder → Except Fault Builder
  | 0, _, b => .ok b
  | k + 1, versioned, b => do
    let (t, b) ← b.peek
    match t.kind with
    | .versionDirective major minor =>
      if versioned then throw (faultAt t "found duplicate %YAML directive")
      else if major ≠ 1 ∨ minor ≠ 1 then throw (faultAt t "found incompatible YAML document")
      else directives k true b.take
    | .tagDirective handle lead =>
      if (b.handles.lookup handle).isSome then
        throw (faultAt t "found duplicate %TAG directive")
      else directives k versioned { b with handles := b.handles ++ [(handle, lead)] }.take
    | _ => return { b with
        handles := b.handles ++ defaultHandles.filter fun h => (b.handles.lookup h.1).isNone }

/-! ### Properties of nodes -/

/-- The anchor and tag in front of a node. -/
structure Properties where
  anchor : Option Text := none
  tag : Option (List Char × List Char × Mark) := none
  /-- Where the node begins. -/
  start : Mark
  deriving Inhabited

/-- Reads an anchor and a tag, in either order. -/
def properties (b : Builder) : Except Fault (Properties × Builder) := do
  let (t, b) ← b.peek
  let p : Properties := { start := t.start }
  match t.kind with
  | .anchor name =>
    let p := { p with anchor := some (Text.ofChars name) }
    let (t, b) ← b.next
    match t.kind with
    | .tag h s => return ({ p with tag := some (h, s, t.start) }, b.take)
    | _ => return (p, b)
  | .tag h s =>
    let p := { p with tag := some (h, s, t.start) }
    let (t, b) ← b.next
    match t.kind with
    | .anchor name => return ({ p with anchor := some (Text.ofChars name) }, b.take)
    | _ => return (p, b)
  | _ => return (p, b)

def fullTag (b : Builder) (p : Properties) : Except Fault Text :=
  match p.tag with
  | none => .ok []
  | some ([], suffix, _) => .ok (Text.ofChars suffix)
  | some (handle, suffix, m) =>
    match (b.handles.lookup handle).map (· ++ suffix) with
    | some (c :: cs) => .ok (Text.ofChars (c :: cs))
    | _ => .error (.ofToken p.start m "found undefined tag handle")

/-- Begins a node: gives it a number, and its anchor to aliases that follow. -/
def begin (b : Builder) (anchor : Option Text) : Nat × Builder :=
  (b.count, { b with
    count := b.count + 1
    anchors := match anchor with
      | some a => (a, b.count) :: b.anchors
      | none => b.anchors })

/-- Ends a node: keeps it if it has an anchor. -/
def finish (b : Builder) (anchor : Option Text) (number : Nat) (t : Tree) : Tree × Builder :=
  (t, { b with
    anchored := match anchor with
      | some _ => (number, t) :: b.anchored
      | none => b.anchored })

def scalarNode (b : Builder) (anchor : Option Text) (tag : Text) (style : ScalarStyle)
    (value : Text) (m : Mark) : Tree × Builder :=
  let (number, b) := b.begin anchor
  b.finish anchor number (.scalar (Tree.scalarTag tag style value) (m.line + 1) value)

/-- A node that is left out. -/
def emptyNode (b : Builder) (m : Mark) : Tree × Builder := b.scalarNode none [] .plain [] m

/-! ### Nodes -/

/-- The token is one of those that end a block collection's entry without a node. -/
def endsEntry : TokenKind → Bool
  | .key => true
  | .value => true
  | .blockEnd => true
  | _ => false

/-- A node of which only the properties are written. -/
def propertiesOnly (p : Properties) (tag : Text) (t : Token) (b : Builder) :
    Except Fault (Tree × Builder) :=
  if p.anchor.isSome ∨ tag ≠ [] then .ok (b.scalarNode p.anchor tag .plain [] p.start)
  else .error (.ofToken p.start t.start "did not find expected node content")

mutual

/-- Reads a node; `block` allows block collections, `indentless` a block sequence
    that is not indented. -/
def node : (fuel : Nat) → (block indentless : Bool) → Builder → Except Fault (Tree × Builder)
  | 0, _, _, _ => .error (.ofCharacter "document is nested too deeply")
  | k + 1, block, indentless, b => do
    let (t, b) ← b.peek
    match t.kind with
    | .reference name =>
      let name := Text.ofChars name
      let b ← b.take.settle
      match b.anchors.lookup name with
      | none => throw (.ofCharacter ("unknown anchor '" ++ name ++ "' referenced"))
      | some target =>
        return (.reference (t.start.line + 1) b.count name target, { b with count := b.count + 1 })
    | _ =>
      let (p, b) ← b.properties
      let (t, b) ← b.peek
      let tag ← b.fullTag p
      let sequence (read : Builder → Except Fault (List Tree × Builder))
          (b : Builder) : Except Fault (Tree × Builder) := do
        let (number, b) := b.begin p.anchor
        let (items, b) ← read b
        return b.finish p.anchor number
          (.sequence (Tree.collectionTag tag Tag.seq) (p.start.line + 1) items)
      let mapping (read : Builder → Except Fault (List (Tree × Tree) × Builder))
          (b : Builder) : Except Fault (Tree × Builder) := do
        let (number, b) := b.begin p.anchor
        let (pairs, b) ← read b
        return b.finish p.anchor number
          (.mapping (Tree.collectionTag tag Tag.map) (p.start.line + 1) pairs)
      match t.kind with
      | .blockEntry =>
        if indentless then sequence (indentlessItems k) b else propertiesOnly p tag t b
      | .scalar text style =>
        return b.take.scalarNode p.anchor tag style (Text.ofChars text) p.start
      | .flowSequenceStart => sequence (flowItems k t.start true) b.take
      | .flowMappingStart => mapping (flowPairs k t.start true) b.take
      | .blockSequenceStart =>
        if block then sequence (blockItems k t.start) b.take
        else propertiesOnly p tag t b
      | .blockMappingStart =>
        if block then mapping (blockPairs k t.start) b.take else propertiesOnly p tag t b
      | _ => propertiesOnly p tag t b

def blockItems : (fuel : Nat) → Mark → Builder → Except Fault (List Tree × Builder)
  | 0, _, b => .ok ([], b)
  | k + 1, start, b => do
    let (t, b) ← b.event
    match t.kind with
    | .blockEntry =>
      let entry := t.stop
      let (t, b) ← b.next
      let (x, b) ← match t.kind with
        | .blockEntry => pure (b.emptyNode entry)
        | .blockEnd => pure (b.emptyNode entry)
        | _ => node k true false b
      let (xs, b) ← blockItems k start b
      return (x :: xs, b)
    | .blockEnd => return ([], b.take)
    | _ => throw (.ofToken start t.start "did not find expected '-' indicator")

/-- Reads the items of a block sequence that is not indented. -/
def indentlessItems : (fuel : Nat) → Builder → Except Fault (List Tree × Builder)
  | 0, b => .ok ([], b)
  | k + 1, b => do
    let (t, b) ← b.event
    match t.kind with
    | .blockEntry =>
      let entry := t.stop
      let (t, b) ← b.next
      let (x, b) ←
        if t.kind = .blockEntry || endsEntry t.kind then pure (b.emptyNode entry)
        else node k true false b
      let (xs, b) ← indentlessItems k b
      return (x :: xs, b)
    | _ => return ([], b)

def blockPairs : (fuel : Nat) → Mark → Builder → Except Fault (List (Tree × Tree) × Builder)
  | 0, _, b => .ok ([], b)
  | k + 1, start, b => do
    let (t, b) ← b.event
    match t.kind with
    | .key =>
      let m := t.stop
      let (t, b) ← b.next
      let (x, b) ← if endsEntry t.kind then pure (b.emptyNode m) else node k true true b
      let (y, b) ← blockValue k b
      let (rest, b) ← blockPairs k start b
      return ((x, y) :: rest, b)
    | .blockEnd => return ([], b.take)
    | _ => throw (.ofToken start t.start "did not find expected key")

def blockValue : (fuel : Nat) → Builder → Except Fault (Tree × Builder)
  | 0, b => .ok (b.emptyNode {})
  | k + 1, b => do
    let (t, b) ← b.event
    match t.kind with
    | .value =>
      let m := t.stop
      let (t, b) ← b.next
      if endsEntry t.kind then return b.emptyNode m else node k true true b
    | _ => return b.emptyNode t.start

def flowItems : (fuel : Nat) → Mark → (first : Bool) → Builder →
    Except Fault (List Tree × Builder)
  | 0, _, _, b => .ok ([], b)
  | k + 1, start, first, b => do
    let (t, b) ← b.event
    if t.kind = .flowSequenceEnd then return ([], b.take)
    else
      let (t, b) ←
        if first then pure (t, b)
        else if t.kind = .flowEntry then b.next
        else throw (.ofToken start t.start "did not find expected ',' or ']'")
      match t.kind with
      | .flowSequenceEnd => return ([], b.take)
      | .key =>
        let (number, b) := b.begin none
        let (pair, b) ← singlePair k b.take
        let (x, b) := b.finish none number (.mapping Tag.map (t.start.line + 1) [pair])
        let (xs, b) ← flowItems k start false b
        return (x :: xs, b)
      | _ =>
        let (x, b) ← node k false false b
        let (xs, b) ← flowItems k start false b
        return (x :: xs, b)

/-- Reads the pair of a mapping that is written as one item of a flow sequence. -/
def singlePair : (fuel : Nat) → Builder → Except Fault ((Tree × Tree) × Builder)
  | 0, b => .ok ((default, default), b)
  | k + 1, b => do
    let (t, b) ← b.event
    let (x, b) ← match t.kind with
      | .value => pure (b.take.emptyNode t.stop)
      | .flowEntry => pure (b.take.emptyNode t.stop)
      | .flowSequenceEnd => pure (b.take.emptyNode t.stop)
      | _ => node k false false b
    let (t, b) ← b.event
    let (y, b) ← match t.kind with
      | .value => do
        let (t, b) ← b.next
        match t.kind with
        | .flowEntry => pure (b.emptyNode t.start)
        | .flowSequenceEnd => pure (b.emptyNode t.start)
        | _ => node k false false b
      | _ => pure (b.emptyNode t.start)
    let (_, b) ← b.event
    return ((x, y), b)

def flowPairs : (fuel : Nat) → Mark → (first : Bool) → Builder →
    Except Fault (List (Tree × Tree) × Builder)
  | 0, _, _, b => .ok ([], b)
  | k + 1, start, first, b => do
    let (t, b) ← b.event
    if t.kind = .flowMappingEnd then return ([], b.take)
    else
      let (t, b) ←
        if first then pure (t, b)
        else if t.kind = .flowEntry then b.next
        else throw (.ofToken start t.start "did not find expected ',' or '\x7d'")
      match t.kind with
      | .flowMappingEnd => return ([], b.take)
      | .key =>
        let (t, b) ← b.next
        let (x, b) ← match t.kind with
          | .value => pure (b.emptyNode t.start)
          | .flowEntry => pure (b.emptyNode t.start)
          | .flowMappingEnd => pure (b.emptyNode t.start)
          | _ => node k false false b
        let (y, b) ← flowValue k b
        let (rest, b) ← flowPairs k start false b
        return ((x, y) :: rest, b)
      | _ =>
        let (x, b) ← node k false false b
        let (t, b) ← b.event
        let (y, b) := b.emptyNode t.start
        let (rest, b) ← flowPairs k start false b
        return ((x, y) :: rest, b)

def flowValue : (fuel : Nat) → Builder → Except Fault (Tree × Builder)
  | 0, b => .ok (b.emptyNode {})
  | k + 1, b => do
    let (t, b) ← b.event
    match t.kind with
    | .value =>
      let (t, b) ← b.next
      match t.kind with
      | .flowEntry => return b.emptyNode t.start
      | .flowMappingEnd => return b.emptyNode t.start
      | _ => node k false false b
    | _ => return b.emptyNode t.start

end

/-! ### Documents -/

def endsDocument : TokenKind → Bool
  | .versionDirective _ _ => true
  | .tagDirective _ _ => true
  | .documentStart => true
  | .documentEnd => true
  | .streamEnd => true
  | _ => false

/-- The document of a finished tree; the token after it must be readable. -/
def document (t : Tree) (b : Builder) : Except Fault Document := do
  let (_, b) ← b.event
  let b ← b.settle
  return { root := t, size := b.count, anchored := b.anchored }

/-- Reads the first document, if there is one. -/
def first (fuel : Nat) (b : Builder) : Except Fault (Option Document) := do
  let (_, b) ← b.peek
  let (t, b) ← b.take.event
  match t.kind with
  | .streamEnd => return none
  | k =>
    let explicit := match k with
      | .versionDirective _ _ => true
      | .tagDirective _ _ => true
      | .documentStart => true
      | _ => false
    if explicit then
      let b ← b.directives fuel false
      let (t, b) ← b.peek
      if t.kind ≠ .documentStart then
        throw (faultAt t "did not find expected <document start>")
      else
        let (t, b) ← b.take.event
        let (tree, b) ←
          if endsDocument t.kind then pure (b.emptyNode t.start) else node fuel true false b
        return some (← document tree b)
    else
      let b ← b.settle
      let (tree, b) ← node fuel true false { b with handles := defaultHandles }
      return some (← document tree b)

end Builder

/-- The first document of a text, if there is one. -/
def Document.ofText? (t : Text) : Except Fault (Option Document) :=
  let r := Reading.ofText t
  Builder.first (2 * (r.chars.length + r.spoilt.length) + 16) { stream := .ofReading r }

end Gauntlet.Yaml
