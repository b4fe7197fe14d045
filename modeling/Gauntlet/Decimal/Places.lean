import Gauntlet.Decimal

/-! # Numbers with a given number of digits

  The texts of a non-negative ratio with a number of places after the point, with a number
  of digits and an exponent, or in whichever of the two is the shorter, and of a binary
  number in base sixteen. All are correctly rounded, a tie going to the even digit.
-/

namespace Gauntlet.Decimal

/-- The exponent of the first digit of a positive ratio. -/
def Ratio.log10 (a : Ratio) : Int :=
  let guess : Int := (Numeral.ofNat a.num).length - (Numeral.ofNat a.den).length
  if a.less (Ratio.decimal 1 guess) then guess - 1 else guess

/-- Digits with a point after the first ones; the point stands alone only if it has to. -/
def pointed (whole places : Text) (always : Bool) : Text :=
  if places.isEmpty && !always then whole else whole ++ "." ++ places

/-- The digits before and after the point, with a number of places. -/
def fixedDigits (places : Nat) (a : Ratio) : Text × Text :=
  let n := roundDiv (a.num * Nat.pow 10 places) a.den
  let ds := Numeral.padded (places + 1) n
  (ds.take (ds.length - places), ds.drop (ds.length - places))

/-- The digits and the exponent of the first of them, with a number of digits after it. -/
def scientificDigits (places : Nat) (a : Ratio) : Text × Int :=
  if a.num = 0 then (Text.repeated 48 (places + 1), 0)
  else
    let e := a.log10
    let scale : Int := places - e
    let n : Nat :=
      if 0 ≤ scale then roundDiv (a.num * Nat.pow 10 scale.toNat) a.den
      else roundDiv a.num (a.den * Nat.pow 10 (-scale).toNat)
    if n = Nat.pow 10 (places + 1) then (Numeral.ofNat (n / 10), e + 1) else (Numeral.ofNat n, e)

/-- An exponent with a sign and at least two digits. -/
def exponentText (e : Int) : Text :=
  (if e < 0 then "-" else "+") ++ Numeral.padded 2 e.natAbs

def fixed (places : Nat) (point : Bool) (a : Ratio) : Text :=
  let (whole, rest) := fixedDigits places a
  pointed whole rest point

/-- One digit before the point, a number of places after it, and an exponent. -/
def scientific (places : Nat) (point : Bool) (a : Ratio) : Text :=
  let (ds, e) := scientificDigits places a
  pointed (ds.take 1) (ds.drop 1) point ++ "e" ++ exponentText e

/-- Places without the zeros at their end. -/
def significant (places : Text) : Text := (places.reverse.dropWhile (· = 48)).reverse

/-- A number of digits, positional if the exponent is at least -4 and less than that
    number; zeros at the end are left out unless the point is asked for. -/
def compact (digits : Nat) (point : Bool) (a : Ratio) : Text :=
  let digits := max digits 1
  let (ds, e) := scientificDigits (digits - 1) a
  let kept (places : Text) : Text := if point then places else significant places
  if e < -4 || (digits : Int) ≤ e then
    pointed (ds.take 1) (kept (ds.drop 1)) point ++ "e" ++ exponentText e
  else
    let (whole, rest) := fixedDigits ((digits : Int) - 1 - e).toNat a
    pointed whole (kept rest) point

/-- The digits of a number in base sixteen. -/
def hexDigits (width n : Nat) : Text :=
  let ds := (Nat.toDigits 16 n).map Text.byte
  Text.repeated 48 (width - ds.length) ++ ds

/-- The number `m · 2^q` in base sixteen with a binary exponent, its point standing `4·k`
    bits from the end of `m`. -/
def binary (k : Nat) (places : Option Nat) (point : Bool) (m : Nat) (q : Int) : Text :=
  let e : Int := if m = 0 then 0 else q + (4 * k : Nat)
  let (whole, rest) : Nat × Text := match places with
    | some p =>
      if p < k then
        let n := roundDiv m (Nat.pow 16 (k - p))
        (n / Nat.pow 16 p, if p = 0 then [] else hexDigits p (n % Nat.pow 16 p))
      else (m / Nat.pow 16 k, hexDigits k (m % Nat.pow 16 k) ++ Text.repeated 48 (p - k))
    | none => (m / Nat.pow 16 k, significant (hexDigits k (m % Nat.pow 16 k)))
  "0x" ++ pointed (hexDigits 1 whole) rest point ++ "p" ++
    (if e < 0 then "-" else "+") ++ Numeral.ofNat e.natAbs

end Gauntlet.Decimal
