import Gauntlet.Decimal
import Gauntlet.Text.Quoted

/-! # Durations

  A duration is a signed 64-bit number of nanoseconds; sums wrap around. Its
  text counts hours, minutes and seconds (`1h2m3.5s`), or a single smaller unit
  below one second (`1.5ms`).
-/

namespace Gauntlet

/-- A signed 64-bit number of nanoseconds. -/
structure Duration where
  nanos : Int64
  deriving DecidableEq, Repr, Inhabited

namespace Duration

/-! ### Arithmetic -/

/-- No time. -/
def zero : Duration := ⟨0⟩

/-- The duration of `n` nanoseconds, modulo 2^64. -/
def ofNanos (n : Int) : Duration := ⟨Int64.ofInt n⟩

/-- The duration of `n` seconds. -/
def ofSeconds (n : Int) : Duration := ofNanos (n * 1000000000)

def toInt (d : Duration) : Int := d.nanos.toInt

instance : Add Duration := ⟨fun a b => ⟨a.nanos + b.nanos⟩⟩

/-- A duration of at least one nanosecond. -/
def isPositive (d : Duration) : Bool := 0 < d.toInt

/-- The nearest duration of a number of nanoseconds that may not fit. -/
def saturated (n : Int) : Duration :=
  if n < -0x8000000000000000 then ofNanos (-0x8000000000000000)
  else if 0x8000000000000000 ≤ n then ofNanos 0x7fffffffffffffff
  else ofNanos n

/-- Rounded to whole milliseconds, a half going away from zero. -/
def toMillisecond (d : Duration) : Duration :=
  let n := d.toInt
  let k := (n.natAbs + 500000) / 1000000 * 1000000
  saturated (if n < 0 then -(k : Int) else k)

/-- Cut to whole milliseconds, toward zero. -/
def cutToMillisecond (d : Duration) : Duration :=
  ofNanos (d.toInt - d.toInt.tmod 1000000)

/-- The number of whole milliseconds, cut toward zero. -/
def milliseconds (d : Duration) : Int := d.toInt.tdiv 1000000

/-- The number of seconds as a double: whole seconds plus the rest. -/
def seconds (d : Duration) : Float :=
  Float.ofInt (d.toInt.tdiv 1000000000) + Float.ofInt (d.toInt.tmod 1000000000) / 1e9

/-! ### Text -/

/-- A fraction of `places` digits with its point, without trailing zeros; nothing
    if it is zero. -/
def fraction (places n : Nat) : Text :=
  let ds := ((Numeral.padded places n).reverse.dropWhile (· = 48)).reverse
  if n = 0 then [] else 46 :: ds

/-- `n` units of `10^places` nanoseconds. -/
def inUnit (n places : Nat) : Text :=
  Numeral.ofNat (n / Nat.pow 10 places) ++ fraction places (n % Nat.pow 10 places)

/-- The text of a number of nanoseconds. -/
def textOfNat (n : Nat) : Text :=
  if n = 0 then "0s"
  else if n < 1000 then Numeral.ofNat n ++ "ns"
  else if n < 1000000 then inUnit n 3 ++ "µs"
  else if n < 1000000000 then inUnit n 6 ++ "ms"
  else
    let s := n / 1000000000
    let rest := fraction 9 (n % 1000000000) ++ "s"
    if s < 60 then Numeral.ofNat s ++ rest
    else if s < 3600 then
      Numeral.ofNat (s / 60) ++ "m" ++ Numeral.ofNat (s % 60) ++ rest
    else
      Numeral.ofNat (s / 3600) ++ "h" ++ Numeral.ofNat (s / 60 % 60) ++ "m" ++
        Numeral.ofNat (s % 60) ++ rest

def text (d : Duration) : Text :=
  if d.toInt < 0 then "-" ++ textOfNat d.toInt.natAbs else textOfNat d.toInt.natAbs

def tenths (d : Duration) : Text := Decimal.onePlace d.seconds ++ "s"

/-! ### Reading -/

/-- Why a text is not a duration. -/
inductive Fault where
  | malformed (text : Text)
  | missingUnit (text : Text)
  | unknownUnit (unit text : Text)
  deriving DecidableEq, Repr

/-- A byte in quotes: hexadecimal outside ASCII and for control characters. -/
def quoteByte (b : UInt8) : Text :=
  if b < 0x20 ∨ 0x80 ≤ b then "\\x" ++ Text.hexDigits 2 b.toNat
  else if b = 34 ∨ b = 92 then [92, b]
  else [b]

/-- A text in quotes, byte by byte. -/
def quoteBytes (t : Text) : Text := "\"" ++ t.flatMap quoteByte ++ "\""

def Fault.message : Fault → Text
  | malformed t => "time: invalid duration " ++ quoteBytes t
  | missingUnit t => "time: missing unit in duration " ++ quoteBytes t
  | unknownUnit u t => "time: unknown unit " ++ quoteBytes u ++ " in duration " ++ quoteBytes t

/-- The number of nanoseconds in a unit. -/
def unit? (u : Text) : Option Nat :=
  if u = Text.ofString "ns" then some 1
  else if u = Text.ofString "us" ∨ u = Text.ofString "µs" ∨ u = Text.ofString "μs" then some 1000
  else if u = Text.ofString "ms" then some 1000000
  else if u = Text.ofString "s" then some 1000000000
  else if u = Text.ofString "m" then some 60000000000
  else if u = Text.ofString "h" then some 3600000000000
  else none

/-- The value of a row of digits, unless it passes 2^63. -/
def whole? (ds : Text) : Option Nat :=
  ds.foldl (fun acc b => acc.bind fun n =>
    let m := n * 10 + (b.toNat - 48)
    if 0x8000000000000000 < m then none else some m) (some 0)

/-- The digits of a fraction as a number and its power of ten; digits that would
    overflow count for nothing. -/
def part (ds : Text) : Nat × Nat :=
  let (n, k, _) := ds.foldl (fun (acc : Nat × Nat × Bool) b =>
    let (n, k, full) := acc
    if full then acc
    else
      let m := n * 10 + (b.toNat - 48)
      if 0x7fffffffffffffff / 10 < n ∨ 0x8000000000000000 < m then (n, k, true) else (m, k + 1, false)) (0, 0, false)
  (n, k)

/-- The power of ten of a number of places as a double, rounded after each factor. -/
def scale : (places : Nat) → Float
  | 0 => 1
  | k + 1 => scale k * 10

/-- The number of nanoseconds of a fraction of a unit, in doubles, cut to a whole. -/
def partOfUnit (n places unit : Nat) : Nat :=
  (Float.ofNat n * (Float.ofNat unit / scale places)).toUInt64.toNat

/-- One number with its unit in front of a text: its nanoseconds and the rest. -/
def component (full t : Text) : Except Fault (Nat × Text) :=
  let ds := t.takeWhile Text.isDigit
  let t₁ := t.dropWhile Text.isDigit
  let (fs, t₂) := match t₁ with
    | 46 :: r => (r.takeWhile Text.isDigit, r.dropWhile Text.isDigit)
    | _ => ([], t₁)
  let startsUnit (b : UInt8) : Bool := b ≠ 46 && !Text.isDigit b
  let u := t₂.takeWhile startsUnit
  let rest := t₂.dropWhile startsUnit
  match whole? ds with
  | none => .error (.malformed full)
  | some v =>
    if ds = [] ∧ fs = [] then .error (.malformed full)
    else if u = [] then .error (.missingUnit full)
    else match unit? u with
      | none => .error (.unknownUnit u full)
      | some unit =>
        let (n, places) := part fs
        if 0x8000000000000000 / unit < v then .error (.malformed full)
        else
          let total := v * unit + (if n = 0 then 0 else partOfUnit n places unit)
          if 0x8000000000000000 < total then .error (.malformed full) else .ok (total, rest)

/-- The nanoseconds of a row of components, on top of `acc`. -/
def components (full : Text) : (fuel : Nat) → (acc : Nat) → Text → Except Fault Nat
  | _, acc, [] => .ok acc
  | 0, _, _ => .error (.malformed full)
  | k + 1, acc, t =>
    match component full t with
    | .error e => .error e
    | .ok (n, rest) =>
      if 0x8000000000000000 < acc + n then .error (.malformed full) else components full k (acc + n) rest

/-- The duration that a text spells: a sign and numbers with units. -/
def read (t : Text) : Except Fault Duration :=
  let (negative, body) := match t with
    | 45 :: r => (true, r)
    | 43 :: r => (false, r)
    | _ => (false, t)
  if body = [48] then .ok zero
  else if body = [] then .error (.malformed t)
  else match components t body.length 0 body with
    | .error e => .error e
    | .ok n =>
      if negative then .ok (ofNanos (-(n : Int)))
      else if 0x8000000000000000 ≤ n then .error (.malformed t)
      else .ok (ofNanos n)

end Duration

end Gauntlet
