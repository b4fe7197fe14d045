import Gauntlet.Text.Quoted

/-! # Identifiers of runs

  An identifier is a universally unique one of the fourth version: sixteen bytes in
  hexadecimal, in five groups, with the version and the variant at their places.
-/

namespace Gauntlet.Run

/-- The byte at a place of the seed, with the place of the version and that of the
    variant marked. -/
def identifierByte (seed : Text) (place : Nat) : UInt8 :=
  let b := seed.getD place 0
  if place = 6 then b % 16 + 0x40 else if place = 8 then b % 64 + 0x80 else b

/-- The identifier of sixteen random bytes. -/
def identifier (seed : Text) : Text :=
  let group (start length : Nat) : Text :=
    Text.hex ((List.range length).map fun i => identifierByte seed (start + i))
  Text.intercalate (Text.ofString "-") [group 0 4, group 4 2, group 6 2, group 8 2, group 10 6]

/-- The seed of a run: the random bytes with the number of the run added at the end. -/
def numbered (seed : Text) (k : Nat) : Text :=
  seed.take 12 ++ (List.range 4).map fun i => seed.getD (12 + i) 0 + (k >>> (8 * (3 - i))).toUInt8

end Gauntlet.Run
