import Gauntlet.Text

/-! # Whole numbers as text

  Writing is plain decimal. Reading follows the rules of a command line: an
  optional sign, a base given by `0x`, `0o`, `0b` or a leading zero, and
  underscores between digits. Digits are read from the left, so a number that is
  too large is reported as such even when a later character is no digit.
-/

namespace Gauntlet.Numeral

/-! ### Writing -/

/-- A natural number in decimal. -/
def ofNat (n : Nat) : Text := (Nat.toDigits 10 n).map Text.byte

/-- An integer in decimal. -/
def ofInt : Int → Text
  | .ofNat n => ofNat n
  | .negSucc n => "-" ++ ofNat (n + 1)

/-- A natural number in octal. -/
def octal (n : Nat) : Text := (Nat.toDigits 8 n).map Text.byte

/-- A natural number in decimal, with zeros in front up to a width. -/
def padded (width n : Nat) : Text :=
  let t := ofNat n
  Text.repeated 48 (width - t.length) ++ t

/-! ### Reading -/

/-- The number that decimal digits stand for. -/
def value (ds : Text) : Nat := ds.foldl (fun n b => n * 10 + (b.toNat - 48)) 0

/-- Why a text is not a number. -/
inductive Fault where
  /-- A character is out of place, or digits are missing. -/
  | malformed
  /-- The number does not fit. -/
  | outOfRange
  deriving DecidableEq, Repr

def Fault.message : Fault → Text
  | malformed => "invalid syntax"
  | outOfRange => "value out of range"

/-- The value of a digit in a base up to 36. -/
def digitValue? (b : UInt8) : Option Nat :=
  if Text.isDigit b then some (b.toNat - 48)
  else if Text.isLower b then some (b.toNat - 87)
  else if Text.isUpper b then some (b.toNat - 55)
  else none

/-- The value of a row of digits that must not exceed `limit`, after digits worth
    `acc`; an underscore counts for nothing. -/
def digits (base limit : Nat) : (acc : Nat) → Text → Except Fault Nat
  | acc, [] => .ok acc
  | acc, b :: t =>
    if b = 95 then digits base limit acc t
    else match digitValue? b with
      | none => .error .malformed
      | some d =>
        if base ≤ d then .error .malformed
        else if limit < acc * base + d then .error .outOfRange
        else digits base limit (acc * base + d) t

/-- The base that a number's first characters announce, and the digits. -/
def announced (t : Text) : Nat × Text :=
  match t with
  | 48 :: c :: d :: rest =>
    if c = 98 ∨ c = 66 then (2, d :: rest)
    else if c = 111 ∨ c = 79 then (8, d :: rest)
    else if c = 120 ∨ c = 88 then (16, d :: rest)
    else (8, c :: d :: rest)
  | 48 :: rest => (8, rest)
  | _ => (10, t)

/-- What stands directly before a place in a number. -/
inductive Before where
  | nothing
  | digit
  | underscore
  | other
  deriving DecidableEq

/-- Every underscore follows a digit (or the base mark) and precedes one. -/
def spacedAfter (hexadecimal : Bool) : Before → Text → Bool
  | before, [] => before ≠ .underscore
  | before, b :: t =>
    let isDigit := Text.isDigit b ||
      (hexadecimal && (match digitValue? b with | some d => d < 16 | none => false))
    if isDigit then spacedAfter hexadecimal .digit t
    else if b = 95 then before = .digit && spacedAfter hexadecimal .underscore t
    else before ≠ .underscore && spacedAfter hexadecimal .other t

/-- The underscores of an unsigned number are well placed. -/
def wellSpaced (t : Text) : Bool :=
  match t with
  | 48 :: c :: rest =>
    if c = 120 ∨ c = 88 then spacedAfter true .digit rest
    else if c = 98 ∨ c = 66 ∨ c = 111 ∨ c = 79 then spacedAfter false .digit rest
    else spacedAfter false .nothing t
  | _ => spacedAfter false .nothing t

/-- An unsigned number of at most `limit` with an announced base. -/
def readUnsigned (limit : Nat) (t : Text) : Except Fault Nat :=
  if t = [] then .error .malformed
  else
    let (base, ds) := announced t
    match digits base limit 0 ds with
    | .error e => .error e
    | .ok n => if ds.contains 95 && !wellSpaced t then .error .malformed else .ok n

/-- A signed 64-bit number, read by `read` after its sign. -/
def signed (read : Text → Except Fault Nat) (t : Text) : Except Fault Int :=
  match t with
  | [] => .error .malformed
  | b :: rest =>
    let negative := b = 45
    match read (if b = 45 ∨ b = 43 then rest else t) with
    | .error e => .error e
    | .ok n =>
      if negative then if n ≤ 0x8000000000000000 then .ok (-(n : Int)) else .error .outOfRange
      else if n < 0x8000000000000000 then .ok n else .error .outOfRange

/-- A signed 64-bit number with an announced base. -/
def readInt (t : Text) : Except Fault Int := signed (readUnsigned 0xffffffffffffffff) t

/-- A signed 64-bit number in a given base, without underscores. -/
def readIntIn (base : Nat) (t : Text) : Except Fault Int :=
  signed (fun ds =>
    if ds = [] ∨ ds.contains 95 then .error .malformed else digits base 0xffffffffffffffff 0 ds) t

end Gauntlet.Numeral
