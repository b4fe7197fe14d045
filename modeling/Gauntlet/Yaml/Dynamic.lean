import Gauntlet.Yaml.Scalar

/-! # Values of no expected type

  A node that is decoded without an expected type becomes a value of the type that its
  own form implies. Such values are compared when names of mappings are; a list or a map
  cannot be compared.
-/

namespace Gauntlet.Yaml

/-- A value of a type that its node implies. -/
inductive Dynamic where
  | null
  | bool (b : Bool)
  | int (n : Int)
  | float (x : Float)
  | timestamp (t : Timestamp)
  | string (t : Text)
  | list (items : List Dynamic)
  /-- A map; if it is `named`, all its keys are strings. -/
  | map (named : Bool) (pairs : List (Dynamic × Dynamic))
  deriving Inhabited

namespace Dynamic

def ofMeaning : Meaning → Dynamic
  | .null => null
  | .bool b => bool b
  | .int n => int n
  | .float x => float x
  | .timestamp t => timestamp t
  | .string t => string t

/-- The type of a value that cannot be compared. -/
def incomparable? : Dynamic → Option Text
  | list _ => some "[]interface \x7b\x7d"
  | map true _ => some "map[string]interface \x7b\x7d"
  | map false _ => some "map[interface \x7b\x7d]interface \x7b\x7d"
  | _ => none

/-- Two comparable values are the same. -/
def same : Dynamic → Dynamic → Bool
  | null, null => true
  | bool a, bool b => a == b
  | int a, int b => a == b
  | float a, float b => a == b
  | timestamp a, timestamp b => a.same b
  | string a, string b => a = b
  | _, _ => false

/-- Pairs with the value of a key replaced, or with a new pair at the end. -/
def store (key value : Dynamic) : List (Dynamic × Dynamic) → List (Dynamic × Dynamic)
  | [] => [(key, value)]
  | (k, v) :: rest => if k.same key then (k, value) :: rest else (k, v) :: store key value rest

/-! ### Order -/

/-- The place of a value's type among the types of keys. -/
def typeRank : Dynamic → Nat
  | null => 0
  | bool _ => 1
  | float _ => 2
  | int n => if n < 0x8000000000000000 then 3 else 5
  | string _ => 4
  | timestamp _ => 6
  | list _ => 7
  | map _ _ => 8

/-- A key stands before another, or at its place: keys go by their types and then by their
    values, and what is no number comes before all numbers. -/
def le (a b : Dynamic) : Bool :=
  if a.typeRank ≠ b.typeRank then a.typeRank < b.typeRank
  else match a, b with
    | bool x, bool y => !x || y
    | float x, float y => x.isNaN || (!y.isNaN && x ≤ y)
    | int x, int y => x ≤ y
    | string x, string y => Text.le x y
    | timestamp x, timestamp y => x.le y
    | _, _ => true

/-! ### Writing -/

mutual

/-- A value as it is shown where it cannot be used, keys in order. -/
def shown : Dynamic → Text
  | null => "interface \x7b\x7d(nil)"
  | bool b => if b then "true" else "false"
  | int n =>
    if n < 0x8000000000000000 then Numeral.ofInt n else "0x" ++ Text.hexDigits 16 n.toNat
  | float x => Decimal.ofFloat x
  | timestamp t => t.shown
  | string t => Text.quoted t
  | list items => "[]interface \x7b\x7d\x7b" ++ Text.intercalate ", " (shownItems items) ++ "\x7d"
  | map named pairs =>
    let ordered := (shownPairs pairs).mergeSort fun a b => a.1.le b.1
    ((map named []).incomparable?.getD []) ++ "\x7b" ++
      Text.intercalate ", " (ordered.map Prod.snd) ++ "\x7d"

def shownItems : List Dynamic → List Text
  | [] => []
  | v :: vs => shown v :: shownItems vs

/-- Several pairs as they are shown, each with its key. -/
def shownPairs : List (Dynamic × Dynamic) → List (Dynamic × Text)
  | [] => []
  | (k, v) :: rest => (k, shown k ++ ":" ++ shown v) :: shownPairs rest

end

end Dynamic

end Gauntlet.Yaml
