import Gauntlet.Numeral

/-! # Binary floating-point numbers as decimal text

  A finite double is exactly `m · 2^q`. Two texts of it are used:

  - the shortest decimal that reads back as the same double, the nearest one if
    several are equally short;
  - a fixed number of places, correctly rounded, a tie going to the even digit.

  Both are computed in exact integer arithmetic from the bits.
-/

namespace Gauntlet.Decimal

/-! ### The value of a double -/

/-- A double, taken apart. -/
inductive Parts where
  /-- The number `m · 2^q`, negated if `negative`; `lowest` tells whether the gap
      below it is half the gap above. -/
  | finite (negative : Bool) (m : Nat) (q : Int) (lowest : Bool)
  | infinite (negative : Bool)
  | notANumber
  deriving DecidableEq

/-- The parts of a double given by its 64 bits. -/
def Parts.ofBits (bits : UInt64) : Parts :=
  let n := bits.toNat
  let negative := 0x8000000000000000 ≤ n
  let biased : Nat := (n >>> 52) % 2048
  let fraction : Nat := n % 0x10000000000000
  if biased = 2047 then if fraction = 0 then .infinite negative else .notANumber
  else if biased = 0 then .finite negative fraction (-1074) false
  else .finite negative (0x10000000000000 + fraction) ((biased : Int) - 1075) (fraction = 0 ∧ 1 < biased)

/-! ### Shortest digits -/

/-- A positive rational. -/
structure Ratio where
  num : Nat
  den : Nat

/-- The ratio `m · 2^q`. -/
def Ratio.binary (m : Nat) (q : Int) : Ratio :=
  if 0 ≤ q then ⟨m <<< q.toNat, 1⟩ else ⟨m, 1 <<< (-q).toNat⟩

/-- The ratio `m · 10^e`. -/
def Ratio.decimal (m : Nat) (e : Int) : Ratio :=
  if 0 ≤ e then ⟨m * Nat.pow 10 e.toNat, 1⟩ else ⟨m, Nat.pow 10 (-e).toNat⟩

/-- Strictly smaller. -/
def Ratio.less (a b : Ratio) : Bool := a.num * b.den < b.num * a.den

/-- The floor of `a / 10^e`. -/
def Ratio.floorAt (a : Ratio) (e : Int) : Nat :=
  if 0 ≤ e then a.num / (a.den * Nat.pow 10 e.toNat) else a.num * Nat.pow 10 (-e).toNat / a.den

/-- The reals that round to a given double. -/
structure Interval where
  low : Ratio
  high : Ratio
  closed : Bool

/-- Membership in the interval. -/
def Interval.has (i : Interval) (a : Ratio) : Bool :=
  (i.low.less a && a.less i.high) ||
  (i.closed && !(a.less i.low) && !(i.high.less a))

/-- The interval of the double `m · 2^q`. -/
def Interval.around (m : Nat) (q : Int) (lowest : Bool) : Interval where
  low := if lowest then Ratio.binary (4 * m - 1) (q - 2) else Ratio.binary (2 * m - 1) (q - 1)
  high := Ratio.binary (2 * m + 1) (q - 1)
  closed := m % 2 = 0

/-- The multiple of `10^e` nearest to `a` that lies in the interval, if one of
    the two neighbours of `a` does. -/
def candidate (i : Interval) (a : Ratio) (e : Int) : Option Nat :=
  let lo := a.floorAt e
  let loIn := i.has (Ratio.decimal lo e) && lo ≠ 0
  let hiIn := i.has (Ratio.decimal (lo + 1) e)
  if loIn && hiIn then
    let mid := Ratio.decimal (2 * lo + 1) e
    let doubled : Ratio := ⟨2 * a.num, a.den⟩
    if doubled.less mid then some lo
    else if mid.less doubled then some (lo + 1)
    else some (if lo % 2 = 0 then lo else lo + 1)
  else if loIn then some lo
  else if hiIn then some (lo + 1)
  else none

/-- The exponent of the first digit of a positive ratio, given a bound. -/
def leading (a : Ratio) : (fuel : Nat) → Int → Int
  | 0, e => e
  | k + 1, e => if 1 ≤ a.floorAt e then e else leading a k (e - 1)

/-- The digits and exponent found on the coarsest grid that has a candidate, the
    grids being `10^e`, `10^(e-1)`, and so on. -/
def shortestFrom (i : Interval) (a : Ratio) : (fuel : Nat) → Int → Nat × Int
  | 0, e => (a.floorAt e, e)
  | k + 1, e =>
    match candidate i a e with
    | some d => (d, e)
    | none => shortestFrom i a k (e - 1)

/-- The significand without trailing zeros. -/
def dropZeros : (fuel : Nat) → Nat → Int → Nat × Int
  | 0, d, e => (d, e)
  | k + 1, d, e => if d ≠ 0 ∧ d % 10 = 0 then dropZeros k (d / 10) (e + 1) else (d, e)

/-- The shortest decimal `d · 10^e` that reads back as the positive double
    `m · 2^q`. -/
def shortest (m : Nat) (q : Int) (lowest : Bool) : Nat × Int :=
  let a := Ratio.binary m q
  let (d, e) := shortestFrom (Interval.around m q lowest) a 800 (leading a 700 310 + 1)
  dropZeros 20 d e

/-! ### General notation -/

/-- A non-negative decimal `d · 10^e`, positional if its first digit stands between
    `10^(-4)` and `10^5`, with an exponent otherwise. -/
def general (d : Nat) (e : Int) : Text :=
  let ds := Numeral.ofNat d
  let point : Int := ds.length + e
  if d = 0 then "0"
  else if point - 1 < -4 ∨ 6 ≤ point - 1 then
    let x := point - 1
    let mantissa := match ds with
      | [] => []
      | [b] => [b]
      | b :: rest => b :: (46 :: rest)
    mantissa ++ "e" ++ (if x < 0 then "-" else "+") ++ Numeral.padded 2 x.natAbs
  else if point ≤ 0 then "0." ++ Text.repeated 48 (-point).toNat ++ ds
  else if ds.length ≤ point.toNat then ds ++ Text.repeated 48 (point.toNat - ds.length)
  else ds.take point.toNat ++ "." ++ ds.drop point.toNat

/-- The shortest text of a double in general notation. -/
def ofFloat (x : Float) : Text :=
  match Parts.ofBits x.toBits with
  | .notANumber => "NaN"
  | .infinite negative => if negative then "-Inf" else "+Inf"
  | .finite negative m q lowest =>
    let body := if m = 0 then ("0" : Text) else
      let (d, e) := shortest m q lowest
      general d e
    if negative then "-" ++ body else body

/-! ### Fixed places -/

/-- The quotient rounded to the nearest integer, a tie going to the even one. -/
def roundDiv (num den : Nat) : Nat :=
  let k := num / den
  let r := num % den
  if 2 * r < den then k
  else if den < 2 * r then k + 1
  else if k % 2 = 0 then k else k + 1

/-- A double with one digit after the point. -/
def onePlace (x : Float) : Text :=
  match Parts.ofBits x.toBits with
  | .notANumber => "NaN"
  | .infinite negative => if negative then "-Inf" else "+Inf"
  | .finite negative m q _ =>
    let a := Ratio.binary (10 * m) q
    let n := roundDiv a.num a.den
    (if negative then "-" else "") ++ Numeral.ofNat (n / 10) ++ "." ++ Numeral.ofNat (n % 10)

end Gauntlet.Decimal
