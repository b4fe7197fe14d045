import Gauntlet.Yaml.Dynamic
import Gauntlet.Yaml.Tree

/-! # Decoding trees into records

  A record is described by its slots: each has a name and says which kind of value
  it takes and how it is stored. Decoding a mapping stores the values of the known
  names and passes over the others. A value of the wrong kind is noted as a mismatch
  and decoding goes on; so all mismatches of a document are told at once. A fault
  ends decoding.

  - An empty value leaves a slot alone, except that a list becomes empty.
  - A name may be given once.
  - A merge key `<<` brings in the pairs of other mappings whose names are not given
    in the mapping itself.
-/

namespace Gauntlet.Yaml

/-- A place for a value in a record of type `σ`. -/
inductive Slot (σ : Type) where
  | text (store : Text → σ → σ)
  | number (store : Int → σ → σ)
  | truth (store : Bool → σ → σ)
  | duration (store : Duration → σ → σ)
  | texts (store : List Text → σ → σ)
  /-- A record inside the record, with the name of its type. -/
  | record (type : Text) (slots : List (Text × Slot σ))

def Slot.type {σ : Type} : Slot σ → Text
  | text _ => "string"
  | number _ => "int"
  | truth _ => "bool"
  | duration _ => "time.Duration"
  | texts _ => "[]string"
  | record type _ => type

structure Decoding (σ : Type) where
  record : σ
  mismatches : List Text := []
  /-- The number of nodes decoded. -/
  decoded : Nat := 0
  /-- The number of those that were decoded inside an alias. -/
  aliased : Nat := 0
  /-- The aliases that are being followed. -/
  following : List Nat := []
  /-- While a mapping is merged: the names that may not be stored any more. -/
  merged : Option (List Dynamic) := none

namespace Decoding

variable {σ : Type}

def note (d : Decoding σ) (m : Text) : Decoding σ :=
  { d with mismatches := d.mismatches ++ [m] }

/-- The refusal of a fault without a place. -/
def fault (problem : Text) : Refusal := .fault (.ofCharacter problem)

/-! ### Counting -/

/-- Too large a part of the work is done inside aliases. -/
def excessive (decoded aliased : Nat) : Bool :=
  let low := 400000
  let high := 4000000
  let allowed : Float :=
    if decoded ≤ low then 0.99
    else if high ≤ decoded then 0.10
    else 0.99 - 0.89 * ((decoded - low).toFloat / (high - low).toFloat)
  decide (100 < aliased) && decide (1000 < decoded) && aliased.toFloat / decoded.toFloat > allowed

/-- The state after one more node has been begun. -/
def counted (d : Decoding σ) : Except Refusal (Decoding σ) :=
  let d := { d with
    decoded := d.decoded + 1
    aliased := if d.following = [] then d.aliased else d.aliased + 1 }
  if excessive d.decoded d.aliased then .error (fault "document contains excessive aliasing")
  else .ok d

/-! ### Scalars -/

/-- The value of a base-64 digit. -/
def sextet? (b : UInt8) : Option Nat :=
  if Text.isUpper b then some (b.toNat - 65)
  else if Text.isLower b then some (b.toNat - 71)
  else if Text.isDigit b then some (b.toNat + 4)
  else if b = 43 then some 62
  else if b = 47 then some 63
  else none

/-- Decodes groups of four base-64 digits; only the last may be filled up with `=`. -/
def base64Groups : Text → Option Text
  | [] => some []
  | a :: b :: c :: d :: rest =>
    match sextet? a, sextet? b with
    | some x, some y =>
      let one := (x * 4 + y / 16).toUInt8
      if c = 61 then if d = 61 ∧ rest = [] then some [one] else none
      else match sextet? c with
        | none => none
        | some z =>
          let two := (y % 16 * 16 + z / 4).toUInt8
          if d = 61 then if rest = [] then some [one, two] else none
          else match sextet? d with
            | none => none
            | some w =>
              (base64Groups rest).map fun t => one :: two :: (z % 4 * 64 + w).toUInt8 :: t
    | _, _ => none
  | _ => none

/-- Decodes base 64; line breaks count for nothing. -/
def base64? (t : Text) : Option Text := base64Groups (t.filter fun b => b ≠ 10 && b ≠ 13)

def meaning (tag value : Text) : Except Refusal (Text × Meaning) :=
  match Meaning.resolve tag value with
  | .error m => .error (fault m)
  | .ok (t, m) =>
    if t = Tag.binary then
      match base64? value with
      | some data => .ok (t, .string data)
      | none => .error (fault "!!binary value contains invalid base64 data")
    else .ok (t, m)

/-- The longest value that a mismatch tells in full. -/
def shownValue (v : Text) : Text :=
  if 10 < v.length then " `" ++ v.take 7 ++ "...`" else " `" ++ v ++ "`"

/-- The mismatch between a node and the type of a slot. -/
def mismatch (t : Tree) (type : Text) : Text :=
  "line " ++ Numeral.ofNat t.line ++ ": cannot unmarshal " ++ t.tag ++
    (if t.tag = Tag.seq ∨ t.tag = Tag.map then t.value else shownValue t.value) ++
    " into " ++ type

/-- A double as a 64-bit integer, if it is not too large; one that is too small
    becomes the least. -/
def truncated? (x : Float) : Option Int :=
  if x ≤ 9223372036854775808.0 then
    if x < 9223372036854775808.0 ∧ -9223372036854775808.0 ≤ x then some x.toInt64.toInt
    else some (-0x8000000000000000)
  else none

def number? : Meaning → Option Int
  | .int n => if n < 0x8000000000000000 then some n else none
  | .float x => truncated? x
  | _ => none

def truth? : Meaning → Option Bool
  | .bool b => some b
  | .string t =>
    if ["y", "Y", "yes", "Yes", "YES", "on", "On", "ON"].any fun w => t = Text.ofString w then some true
    else if ["n", "N", "no", "No", "NO", "off", "Off", "OFF"].any fun w => t = Text.ofString w then some false
    else none
  | _ => none

def duration? : Meaning → Option Duration
  | .string t => (Duration.read t).toOption
  | _ => none

/-- The text that a scalar gives; an empty value gives none. -/
def scalarText (t : Tree) : Except Refusal (Option Text) := do
  let (tag, m) ← meaning t.tag t.value
  match m with
  | .null => return none
  | .string v => return some (if tag = Tag.binary then v else t.value)
  | _ => return some t.value

def scalar (slot : Slot σ) (t : Tree) (d : Decoding σ) : Except Refusal (Bool × Decoding σ) := do
  let (_, m) ← meaning t.tag t.value
  let stored (f : σ → σ) : Bool × Decoding σ := (true, { d with record := f d.record })
  let refused : Bool × Decoding σ := (false, d.note (mismatch t slot.type))
  match m, slot with
  | .null, .texts store => return stored (store [])
  | .null, _ => return (false, d)
  | m, .number store => return ((number? m).map fun n => stored (store n)).getD refused
  | m, .truth store => return ((truth? m).map fun b => stored (store b)).getD refused
  | m, .duration store => return ((duration? m).map fun x => stored (store x)).getD refused
  | _, _ => return refused

/-! ### Mappings -/

/-- The mismatches of names that are given twice: each pair of equal names. -/
def repeatedNames : List (Tree × Tree) → List Text
  | [] => []
  | (k, _) :: rest =>
    rest.filterMap (fun (k', _) =>
      if k.kind = k'.kind ∧ k.value = k'.value then
        some ("line " ++ Numeral.ofNat k'.line ++ ": mapping key " ++ Text.quoted k'.value ++
          " already defined at line " ++ Numeral.ofNat k.line)
      else none) ++ repeatedNames rest

def isMerge (t : Tree) : Bool := t.kind = .scalar && t.value = "<<" && t.tag = Tag.merge

def noMap : Refusal := fault "map merge requires map or sequence of maps as the value"

/-- The fault of an alias inside the node that it stands for. -/
def selfReference (name : Text) : Refusal := fault ("anchor '" ++ name ++ "' value contains itself")

/-- The node that an alias stands for. -/
def target? (doc : Document) : Tree → Option Tree
  | .reference _ _ _ n => doc.node? n
  | _ => none

/-- A merge may take pairs from this node. -/
def isMergeable (doc : Document) (t : Tree) : Bool :=
  match t with
  | .mapping _ _ _ => true
  | .reference _ _ _ _ => match target? doc t with
    | some (.mapping _ _ _) => true
    | some _ => false
    | none => true
  | _ => false

/-- The text of a node, if it has one. -/
def textOf (doc : Document) : (fuel : Nat) → Tree → Decoding σ →
    Except Refusal (Option Text × Decoding σ)
  | 0, _, _ => .error (fault "document contains excessive aliasing")
  | k + 1, t, d => do
    let d ← d.counted
    match t with
    | .reference _ number name _ =>
      if d.following.contains number then throw (selfReference name)
      else match target? doc t with
        | none => return (none, d)
        | some t' =>
          let (v, d') ← textOf doc k t' { d with following := number :: d.following }
          return (v, { d' with following := d.following })
    | .scalar _ _ _ => return (← scalarText t, d)
    | .sequence _ _ _ => return (none, d.note (mismatch t "string"))
    | .mapping _ _ pairs =>
      match repeatedNames pairs with
      | [] => return (none, d.note (mismatch t "string"))
      | ms => return (none, { d with mismatches := d.mismatches ++ ms })

/-- The texts of several nodes; nodes that have none are dropped. -/
def textsOf (doc : Document) (fuel : Nat) : List Tree → Decoding σ →
    Except Refusal (List Text × Decoding σ)
  | [], d => .ok ([], d)
  | t :: ts, d => do
    let (v, d) ← textOf doc fuel t d
    let (vs, d) ← textsOf doc fuel ts d
    return (match v with | some v => v :: vs | none => vs, d)

/-! ### Values of no expected type -/

/-- The tag of a node, or of the node that an alias stands for. -/
def tagOf (doc : Document) (t : Tree) : Text := ((target? doc t).getD t).tag

/-- All keys of a mapping are strings, merge keys aside. -/
def isNamed (doc : Document) (pairs : List (Tree × Tree)) : Bool :=
  pairs.all fun (k, _) => tagOf doc k = Tag.str || tagOf doc k = Tag.merge

/-- A name is among the names; a collection cannot be looked for. -/
def listed (names : List Dynamic) (name : Dynamic) : Except Refusal Bool :=
  match name.incomparable? with
  | some type => .error (.incomparable type)
  | none => .ok (names.any name.same)

/-- As `listed`, while a mapping is merged; nothing is listed at other times. -/
def listedIn (merged : Option (List Dynamic)) (name : Dynamic) : Except Refusal Bool :=
  match merged with
  | some names => listed names name
  | none => .ok false

def mergeValue? (pairs : List (Tree × Tree)) : Option Tree :=
  ((pairs.filter fun p => isMerge p.1).getLast?).map Prod.snd

/-- The mappings that a merge takes pairs from, one after the other. -/
def mergeSources (doc : Document) : Tree → List (Except Refusal Tree)
  | .sequence _ _ ts => ts.map fun t => if isMergeable doc t then .ok t else .error noMap
  | t => [if isMergeable doc t then .ok t else .error noMap]

mutual

/-- Decodes a node without an expected type. -/
def dynamic (doc : Document) : (fuel : Nat) → Tree → Decoding σ →
    Except Refusal (Option Dynamic × Decoding σ)
  | 0, _, _ => .error (fault "document contains excessive aliasing")
  | k + 1, t, d => do
    let d ← d.counted
    match t with
    | .reference _ number name _ =>
      if d.following.contains number then throw (selfReference name)
      else match target? doc t with
        | none => return (none, d)
        | some t' =>
          let (v, d') ← dynamic doc k t' { d with following := number :: d.following }
          return (v, { d' with following := d.following })
    | .scalar tag _ v =>
      let (_, m) ← meaning tag v
      return (some (.ofMeaning m), d)
    | .sequence _ _ ts =>
      let (items, d) ← dynamics doc k ts d
      return (some (.list items), d)
    | .mapping _ _ pairs =>
      let named := isNamed doc pairs
      let (stored, entries, d) ← intoMap doc k named pairs [] d
      return (if stored then some (.map named entries) else none, d)

/-- Decodes several nodes without an expected type; nodes without a value are dropped. -/
def dynamics (doc : Document) : (fuel : Nat) → List Tree → Decoding σ →
    Except Refusal (List Dynamic × Decoding σ)
  | 0, _, d => .ok ([], d)
  | _, [], d => .ok ([], d)
  | k + 1, t :: ts, d => do
    let (v, d) ← dynamic doc k t d
    let (vs, d) ← dynamics doc k ts d
    return (v.toList ++ vs, d)

/-- Adds the pairs of a mapping to those of a map, then what it merges; tells whether
    the mapping could be taken. -/
def intoMap (doc : Document) : (fuel : Nat) → (named : Bool) → List (Tree × Tree) →
    (entries : List (Dynamic × Dynamic)) → Decoding σ →
    Except Refusal (Bool × List (Dynamic × Dynamic) × Decoding σ)
  | 0, _, _, entries, d => .ok (false, entries, d)
  | k + 1, named, pairs, entries, d => do
    match repeatedNames pairs with
    | m :: ms => return (false, entries, { d with mismatches := d.mismatches ++ m :: ms })
    | [] =>
      let merged := d.merged
      let (entries, d) ← intoMapPairs doc k named pairs entries { d with merged := none } merged
      match mergeValue? pairs with
      | none => return (true, entries, d)
      | some value =>
        let outer := d.merged
        let d ← beginMerge doc k pairs d
        let (entries, d) ← mergeIntoMap doc k named (mergeSources doc value) entries d
        return (true, entries, if outer.isSome then d else { d with merged := none })

/-- Adds pairs to a map. During a merge, `merged` are the keys that may not be added. -/
def intoMapPairs (doc : Document) : (fuel : Nat) → (named : Bool) → List (Tree × Tree) →
    (entries : List (Dynamic × Dynamic)) → Decoding σ → (merged : Option (List Dynamic)) →
    Except Refusal (List (Dynamic × Dynamic) × Decoding σ)
  | 0, _, _, entries, d, merged => .ok (entries, { d with merged })
  | _, _, [], entries, d, merged => .ok (entries, { d with merged })
  | k + 1, named, (key, value) :: rest, entries, d, merged => do
    if isMerge key then intoMapPairs doc k named rest entries d merged
    else
      let (name, d) ← (if named then do
          let (t, d) ← textOf doc k key d
          return (t.map .string, d)
        else dynamic doc k key d : Except Refusal (Option Dynamic × Decoding σ))
      match name with
      | none => intoMapPairs doc k named rest entries d merged
      | some name =>
        if ← listedIn merged name then intoMapPairs doc k named rest entries d merged
        else
          let merged := merged.map (name :: ·)
          if name.incomparable?.isSome then throw (fault ("invalid map key: " ++ name.shown))
          let (v, d) ← dynamic doc k value d
          let entries := match v with
            | some v => Dynamic.store name v entries
            | none => entries
          intoMapPairs doc k named rest entries d merged

def mergeIntoMap (doc : Document) : (fuel : Nat) → (named : Bool) → List (Except Refusal Tree) →
    (entries : List (Dynamic × Dynamic)) → Decoding σ →
    Except Refusal (List (Dynamic × Dynamic) × Decoding σ)
  | 0, _, _, entries, d => .ok (entries, d)
  | _, _, [], entries, d => .ok (entries, d)
  | k + 1, named, source :: rest, entries, d => do
    let (entries, d) ← mergeOneIntoMap doc k named (← source) entries d
    mergeIntoMap doc k named rest entries d

/-- Merges one mapping, or the mapping that an alias stands for, into a map. -/
def mergeOneIntoMap (doc : Document) : (fuel : Nat) → (named : Bool) → Tree →
    (entries : List (Dynamic × Dynamic)) → Decoding σ →
    Except Refusal (List (Dynamic × Dynamic) × Decoding σ)
  | 0, _, _, entries, d => .ok (entries, d)
  | k + 1, named, t, entries, d => do
    let d ← d.counted
    match t with
    | .reference _ number name _ =>
      if d.following.contains number then throw (selfReference name)
      else match target? doc t with
        | none => return (entries, d)
        | some t' =>
          let (entries, d') ←
            mergeOneIntoMap doc k named t' entries { d with following := number :: d.following }
          return (entries, { d' with following := d.following })
    | .mapping _ _ pairs => return (← intoMap doc k named pairs entries d).2
    | _ => return (entries, d)

/-- The state in which a merge into a mapping begins: unless it is part of another merge,
    the names of the mapping itself may not be stored. -/
def beginMerge (doc : Document) : (fuel : Nat) → List (Tree × Tree) → Decoding σ →
    Except Refusal (Decoding σ)
  | 0, _, d => .ok d
  | k + 1, pairs, d => if d.merged.isSome then .ok d else ownNames doc k pairs { d with merged := some [] }

/-- Adds the keys of a mapping to the names that may not be stored. -/
def ownNames (doc : Document) : (fuel : Nat) → List (Tree × Tree) → Decoding σ →
    Except Refusal (Decoding σ)
  | 0, _, d => .ok d
  | _, [], d => .ok d
  | k + 1, (key, _) :: rest, d => do
    match ← dynamic doc k key d with
    | (none, d) => ownNames doc k rest d
    | (some name, d) =>
      let names := d.merged.getD []
      let known ← listed names name
      ownNames doc k rest { d with merged := some (if known then names else name :: names) }

end

mutual

/-- Decodes a node into a slot; tells whether a value was stored. -/
def node (doc : Document) : (fuel : Nat) → Slot σ → Tree → Decoding σ →
    Except Refusal (Bool × Decoding σ)
  | 0, _, _, _ => .error (fault "document contains excessive aliasing")
  | k + 1, .text store, t, d => do
    match ← textOf doc (k + 1) t d with
    | (some v, d) => return (true, { d with record := store v d.record })
    | (none, d) => return (false, d)
  | k + 1, slot, t, d => do
    let d ← d.counted
    match t with
    | .reference _ number name _ =>
      if d.following.contains number then
        throw (selfReference name)
      else match target? doc t with
        | none => return (false, d)
        | some t' =>
          let (good, d') ← node doc k slot t' { d with following := number :: d.following }
          return (good, { d' with following := d.following })
    | .scalar _ _ _ => scalar slot t d
    | .sequence _ _ ts =>
      match slot with
      | .texts store =>
        let (vs, d) ← textsOf doc k ts d
        return (true, { d with record := store vs d.record })
      | _ => return (false, d.note (mismatch t slot.type))
    | .mapping _ _ pairs =>
      match repeatedNames pairs with
      | m :: ms => return (false, { d with mismatches := d.mismatches ++ m :: ms })
      | [] =>
        match slot with
        | .record type slots =>
          let merged := d.merged
          let d ← fields doc k type slots [] pairs { d with merged := none } merged
          return (true, ← merges doc k slot pairs d)
        | _ => return (false, d.note (mismatch t slot.type))

/-- Decodes the pairs of a record whose slots in `done` have been given already.
    During a merge, `merged` are the names that may not be stored. -/
def fields (doc : Document) : (fuel : Nat) → (type : Text) → List (Text × Slot σ) →
    (done : List Text) → List (Tree × Tree) → Decoding σ → (merged : Option (List Dynamic)) →
    Except Refusal (Decoding σ)
  | 0, _, _, _, _, d, merged => .ok { d with merged }
  | _, _, _, _, [], d, merged => .ok { d with merged }
  | k + 1, type, slots, done, (key, value) :: rest, d, merged => do
    if isMerge key then fields doc k type slots done rest d merged
    else
      let (name, d) ← textOf doc k key d
      match name with
      | none => fields doc k type slots done rest d merged
      | some name =>
        if (merged.getD []).any (Dynamic.string name).same then
          fields doc k type slots done rest d merged
        else
          let merged := merged.map (.string name :: ·)
          match slots.lookup name with
          | none => fields doc k type slots done rest d merged
          | some slot =>
            if done.contains name then
              let m := "line " ++ Numeral.ofNat key.line ++ ": field " ++ name ++
                " already set in type " ++ type
              fields doc k type slots done rest (d.note m) merged
            else
              let (_, d) ← node doc k slot value d
              fields doc k type slots (name :: done) rest d merged

/-- Merges what the last merge key of a mapping refers to. -/
def merges (doc : Document) : (fuel : Nat) → Slot σ → List (Tree × Tree) → Decoding σ →
    Except Refusal (Decoding σ)
  | 0, _, _, d => .ok d
  | k + 1, slot, pairs, d => do
    match mergeValue? pairs with
    | none => return d
    | some value =>
      let outer := d.merged
      let d ← beginMerge doc (k + 1) pairs d
      let d ← mergeAll doc k slot (mergeSources doc value) d
      return if outer.isSome then d else { d with merged := none }

def mergeAll (doc : Document) : (fuel : Nat) → Slot σ → List (Except Refusal Tree) →
    Decoding σ → Except Refusal (Decoding σ)
  | 0, _, _, d => .ok d
  | _, _, [], d => .ok d
  | k + 1, slot, source :: rest, d => do
    let (_, d) ← node doc k slot (← source) d
    mergeAll doc k slot rest d

end

end Decoding

/-- Decodes a text into a record that starts as `empty`; a text without a document
    leaves it so. The document counts as a node of its own. -/
def decode {σ : Type} (slot : Slot σ) (empty : σ) (t : Text) : Except Refusal σ :=
  match Document.ofText? t with
  | .error f => .error (.fault f)
  | .ok none => .ok empty
  | .ok (some doc) =>
    let fuel := (doc.size + 2) * (2 * doc.size + 8) + 8
    match Decoding.node doc fuel slot doc.root { record := empty, decoded := 1 } with
    | .error r => .error r
    | .ok (_, d) => if d.mismatches = [] then .ok d.record else .error (.mismatches d.mismatches)

end Gauntlet.Yaml
