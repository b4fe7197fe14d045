import Gauntlet.Text

/-! # Checksums

  The 32-bit cyclic redundancy check of an archive entry, with the reflected
  polynomial 0xEDB88320.
-/

namespace Gauntlet.Archive

def checksumBit (c : UInt32) : UInt32 :=
  if c &&& 1 = 1 then (c >>> 1) ^^^ 0xEDB88320 else c >>> 1

def checksumBits : (n : Nat) → UInt32 → UInt32
  | 0, c => c
  | n + 1, c => checksumBits n (checksumBit c)

/-- The effect of each byte on an empty remainder. -/
def checksumTable : Array UInt32 :=
  (Array.range 256).map fun n => checksumBits 8 n.toUInt32

/-- The remainder after one more byte. -/
def checksumStep (c : UInt32) (b : UInt8) : UInt32 :=
  checksumTable.getD ((c ^^^ b.toUInt32) &&& 0xFF).toNat 0 ^^^ (c >>> 8)

def checksum (t : Text) : Nat := (t.foldl checksumStep 0xFFFFFFFF ^^^ 0xFFFFFFFF).toNat

end Gauntlet.Archive
