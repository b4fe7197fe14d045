import Gauntlet.Failure

/-! # Faults of archives -/

namespace Gauntlet.Archive

/-- Why an archive or an entry cannot be read. -/
inductive Fault where
  /-- The structure is wrong. -/
  | malformed
  /-- The data ends inside a record. -/
  | truncated
  /-- The data ends before a record. -/
  | ended
  | unknownMethod
  | checksumMismatch
  /-- The compressed data makes no sense. -/
  | corrupt (offset : Nat)
  /-- A record is said to lie before the start of the file. -/
  | negativeOffset (archive : Text)
  deriving DecidableEq, Repr, Inhabited

def Fault.message : Fault → Text
  | malformed => "zip: not a valid zip file"
  | truncated => "unexpected EOF"
  | ended => "EOF"
  | unknownMethod => "zip: unsupported compression algorithm"
  | checksumMismatch => "zip: checksum error"
  | corrupt n => "flate: corrupt input before offset " ++ Numeral.ofNat n
  | negativeOffset p => "readat " ++ p ++ ": negative offset"

def Fault.failure (f : Fault) : Failure := .plain f.message

end Gauntlet.Archive
