import Gauntlet.Decimal
import Gauntlet.Duration
import Gauntlet.Text.CodePoint
import Gauntlet.Yaml.Timestamp

/-! # The meaning of plain scalars

  A plain scalar without a tag is a null, a truth value, a number, a timestamp or
  else a string, decided by its text alone. With a tag the text must agree with it.
-/

namespace Gauntlet.Yaml

/-- What a scalar stands for. -/
inductive Meaning where
  | null
  | bool (b : Bool)
  | int (n : Int)
  | float (x : Float)
  | timestamp (t : Timestamp)
  | string (t : Text)
  deriving Inhabited

namespace Tag

def str : Text := "!!str"
def null : Text := "!!null"
def bool : Text := "!!bool"
def int : Text := "!!int"
def float : Text := "!!float"
def timestamp : Text := "!!timestamp"
def binary : Text := "!!binary"
def merge : Text := "!!merge"
def seq : Text := "!!seq"
def map : Text := "!!map"

/-- The long form that the short form `!!` stands for. -/
def standard : Text := "tag:yaml.org,2002:"

def short (t : Text) : Text :=
  match Text.after? standard t with
  | some rest => "!!" ++ rest
  | none => t

end Tag

namespace Meaning

def tag : Meaning → Text
  | null => Tag.null
  | bool _ => Tag.bool
  | int _ => Tag.int
  | float _ => Tag.float
  | timestamp _ => Tag.timestamp
  | string _ => Tag.str

/-! ### Words -/

def words : List (Text × Meaning) :=
  let named (m : Meaning) (ws : List String) : List (Text × Meaning) :=
    ws.map fun w => (Text.ofString w, m)
  named (.bool true) ["true", "True", "TRUE"] ++
  named (.bool false) ["false", "False", "FALSE"] ++
  named .null ["", "~", "null", "Null", "NULL"] ++
  named (.float (0.0 / 0.0)) [".nan", ".NaN", ".NAN"] ++
  named (.float (1.0 / 0.0)) [".inf", ".Inf", ".INF", "+.inf", "+.Inf", "+.INF"] ++
  named (.float (-1.0 / 0.0)) ["-.inf", "-.Inf", "-.INF"]

def word? (t : Text) : Option Meaning := (words.find? fun w => w.1 = t).map Prod.snd

/-! ### Numbers -/

/-- The parts of a decimal number: negative, digits before and after the point,
    exponent. -/
structure DecimalText where
  negative : Bool
  whole : Text
  fraction : Text
  exponent : Int

/-- The exponent of a decimal number, which must end it. -/
def exponent? (t : Text) : Option Int :=
  match t with
  | [] => some 0
  | e :: rest =>
    if e ≠ 101 ∧ e ≠ 69 then none
    else
      let (negative, ds) := match rest with
        | 45 :: ds => (true, ds)
        | 43 :: ds => (false, ds)
        | ds => (false, ds)
      if ds = [] ∨ !ds.all Text.isDigit then none
      else some (if negative then -(Numeral.value ds : Int) else Numeral.value ds)

/-- Reads a decimal number with digits before or after its point. -/
def decimal? (t : Text) : Option DecimalText :=
  let (negative, body) := match t with
    | 45 :: r => (true, r)
    | 43 :: r => (false, r)
    | _ => (false, t)
  let whole := body.takeWhile Text.isDigit
  let rest := body.dropWhile Text.isDigit
  let (fraction, rest) := match rest with
    | 46 :: r => (r.takeWhile Text.isDigit, r.dropWhile Text.isDigit)
    | _ => ([], rest)
  if whole = [] ∧ fraction = [] then none
  else (exponent? rest).map fun exponent => { negative, whole, fraction, exponent }

/-- Each underscore stands between two digits; `digit` tells that one came just before. -/
def separatesDigits : (digit : Bool) → Text → Bool
  | _, [] => true
  | digit, 95 :: t => digit && (t.head?.any Text.isDigit) && separatesDigits false t
  | _, b :: t => separatesDigits (Text.isDigit b) t

/-- Reads a decimal number whose digits may be separated by underscores. -/
def separated? (t : Text) : Option DecimalText :=
  if separatesDigits false t then decimal? (t.filter (· ≠ 95)) else none

/-- The double nearest to a decimal number, unless it is too large. -/
def DecimalText.toFloat? (d : DecimalText) : Option Float :=
  let m := Numeral.value (d.whole ++ d.fraction)
  let e := d.exponent - d.fraction.length
  let x :=
    if m = 0 then 0.0
    else if e < -5000 - m.log2 then 0.0
    else if 5000 < e then 1.0 / 0.0
    else if 0 ≤ e then Float.ofScientific m false e.toNat
    else Float.ofScientific m true (-e).toNat
  if x.isInf then none else some (if d.negative then -x else x)

/-- A plain number: integers with an announced base, then decimals. -/
def number? (t : Text) : Option Meaning :=
  let plain := t.filter (· ≠ 95)
  match Numeral.readInt plain with
  | .ok n => some (.int n)
  | .error _ =>
    match Numeral.readUnsigned 0xffffffffffffffff plain with
    | .ok n => some (.int n)
    | .error _ =>
      match (decimal? plain).bind DecimalText.toFloat? with
      | some x => some (.float x)
      | none =>
        let prefixed (lead : String) (base : Nat) (negative : Bool) : Option Meaning :=
          match Text.after? lead plain with
          | none => none
          | some ds =>
            let ds := if negative then 45 :: ds else ds
            match Numeral.readIntIn base ds with
            | .ok n => some (.int n)
            | .error _ => none
        prefixed "0b" 2 false <|> prefixed "-0b" 2 true <|> prefixed "0o" 8 false <|>
          prefixed "-0o" 8 true

/-! ### Resolution -/

/-- The first character tells that a text may be more than a string. -/
inductive Hint where
  | none
  | word
  | point
  | number

/-- The hint that the first character gives. -/
def hint (t : Text) : Hint :=
  match t with
  | [] => .word
  | b :: _ =>
    if Text.isDigit b || b = 43 || b = 45 then .number
    else if b = 46 then .point
    else if ("yYnNtTfFoO~" : Text).contains b then .word
    else .none

/-- The meaning of a text; `dated` tells whether it may be a timestamp. -/
def ofText (dated : Bool) (t : Text) : Meaning :=
  match hint t with
  | .none => .string t
  | h =>
    match word? t with
    | some m => m
    | none =>
      match h with
      | .point =>
        match (separated? t).bind DecimalText.toFloat? with
        | some x => .float x
        | none => .string t
      | .number =>
        match if dated then Timestamp.read? t else none with
        | some moment => .timestamp moment
        | none => (number? t).getD (.string t)
      | _ => .string t

def checkedTags : List Text :=
  [[], Tag.str, Tag.bool, Tag.int, Tag.float, Tag.null, Tag.timestamp]

/-- The refusal of a text that does not agree with its tag. -/
def disagreement (found t tag : Text) : Text :=
  "cannot decode " ++ found ++ " `" ++ t ++ "` as a " ++ tag

/-- The meaning of a text with a tag, and the tag that it gets. -/
def resolve (tag t : Text) : Except Text (Text × Meaning) :=
  let tag := Tag.short tag
  if !checkedTags.contains tag then .ok (tag, .string t)
  else if tag = Tag.str then .ok (Tag.str, .string t)
  else
    let m := ofText (tag = [] || tag = Tag.timestamp) t
    if tag = [] ∨ tag = m.tag then .ok (m.tag, m)
    else match m with
      | .int n =>
        if tag = Tag.float ∧ n < 0x8000000000000000 then .ok (Tag.float, .float (Float.ofInt n))
        else .error (disagreement m.tag t tag)
      | _ => .error (disagreement m.tag t tag)

end Meaning

end Gauntlet.Yaml
