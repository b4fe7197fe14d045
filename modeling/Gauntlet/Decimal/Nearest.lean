import Gauntlet.Decimal

/-! # The number of a binary format nearest to a ratio

  A number read from text is exact: a ratio. The nearest number of a binary format lies on
  the grid `2^q`, where `q` leaves all the bits of the format for the quotient but is never
  below the grid of the smallest numbers. A tie goes to the even neighbour.
-/

namespace Gauntlet.Decimal

/-- A binary format: the bits of the significand and the exponents of its last bit. -/
structure Format where
  bits : Nat
  least : Int
  most : Int

namespace Format

def double : Format := ⟨53, -1074, 971⟩

/-- Numbers with a significand of 64 bits. -/
def extended : Format := ⟨64, -16445, 16320⟩

end Format

/-- The exponent of the leading bit of a positive ratio. -/
def Ratio.log2 (a : Ratio) : Int :=
  let e : Int := (a.num.log2 : Int) - (a.den.log2 : Int)
  if a.less (Ratio.binary 1 e) then e - 1 else e

/-- The ratio in steps of `2^q`. -/
def Ratio.stepsOf (a : Ratio) (q : Int) : Ratio :=
  if 0 ≤ q then ⟨a.num, a.den <<< q.toNat⟩ else ⟨a.num <<< (-q).toNat, a.den⟩

/-- What stands for a number in a format. -/
structure Nearest where
  parts : Parts
  /-- The number is too large or too small to be told well. -/
  beyond : Bool := false

def nearest (f : Format) (negative : Bool) (a : Ratio) : Nearest :=
  if a.num = 0 then { parts := .finite negative 0 f.least false }
  else
    let top : Nat := 1 <<< (f.bits - 1)
    let q := max (a.log2 - (f.bits - 1 : Nat)) f.least
    let steps := a.stepsOf q
    let m := roundDiv steps.num steps.den
    let (m, q) : Nat × Int := if m = 2 * top then (top, q + 1) else (m, q)
    if f.most < q then { parts := .infinite negative, beyond := true }
    else
      { parts := .finite negative m q (m = top && f.least < q)
        beyond := m < top && steps.num % steps.den ≠ 0 }

end Gauntlet.Decimal
