import Gauntlet.Archive.Checksum
import Gauntlet.Archive.Inflate
import Gauntlet.Instant

/-! # Archive entries

  An entry names a file or directory with its mode, its change time and where its
  data lies. Its contents are checked against the announced size and checksum.
-/

namespace Gauntlet.Archive

/-- The number whose bytes are given, lowest first. -/
def littleEndian : Text → Nat
  | [] => 0
  | b :: t => b.toNat + 256 * littleEndian t

/-- The number of `width` bytes at an offset into a record. -/
def numberAt (t : Text) (offset width : Nat) : Nat := littleEndian ((t.drop offset).take width)

/-- The signed 64-bit reading of a number, modulo 2^64. -/
def signed64 (n : Int) : Int := (Int64.ofInt n).toInt

/-- What an entry describes. -/
inductive Kind where
  | directory
  | regular
  /-- A link, device or other special file. -/
  | special
  deriving DecidableEq, Repr, Inhabited

structure Entry where
  name : Text
  /-- The system that made the entry, which says how to read the attributes. -/
  creator : Nat
  attributes : Nat
  /-- The data is followed by a record of its checksum and sizes. -/
  hasDescriptor : Bool
  method : Nat
  checksum : Nat
  compressedSize : Nat
  size : Nat
  modified : Instant
  /-- Where the entry's own header lies in the file. -/
  headerOffset : Int
  deriving Repr, Inhabited

namespace Entry

/-! ### Mode -/

/-- The entry's mode follows the rules of Unix. -/
def isUnix (e : Entry) : Bool := e.creator = 3 || e.creator = 19

/-- The entry's mode follows the rules of DOS. -/
def isDos (e : Entry) : Bool := e.creator = 0 || e.creator = 11 || e.creator = 14

def namesDirectory (e : Entry) : Bool := e.name.getLast? = some 47

def kind (e : Entry) : Kind :=
  if e.namesDirectory then .directory
  else if e.isUnix then
    match e.attributes / 65536 / 4096 % 16 with
    | 4 => .directory
    | 1 | 2 | 6 | 10 | 12 => .special
    | _ => .regular
  else if e.isDos && e.attributes / 16 % 2 = 1 then .directory
  else .regular

def permissions (e : Entry) : Nat :=
  if e.isUnix then (e.attributes / 65536) &&& 0o777
  else if e.isDos then
    let bits := if e.attributes / 16 % 2 = 1 then 0o777 else 0o666
    if e.attributes % 2 = 1 then bits &&& 0o555 else bits
  else 0

/-! ### Contents -/

/-- The bytes of a file from an offset on, at most `n` of them. -/
def slice (image : Text) (offset : Int) (n : Nat) : Text :=
  if offset < 0 then [] else (image.drop offset.toNat).take n

/-- The offset of the entry's data, found in the entry's own header. -/
def dataOffset (archive image : Text) (e : Entry) : Except Fault Int :=
  if e.headerOffset < 0 then .error (.negativeOffset archive)
  else
    let header := slice image e.headerOffset 30
    if header.length < 30 then .error .ended
    else if numberAt header 0 4 ≠ 0x04034b50 then .error .malformed
    else .ok (e.headerOffset + 30 + numberAt header 26 2 + numberAt header 28 2)

/-- The number of compressed bytes, none if it is no 63-bit number. -/
def dataSize (e : Entry) : Nat := if e.compressedSize < 0x8000000000000000 then e.compressedSize else 0

/-- The record after the data agrees with the entry's checksum. -/
def checkDescriptor (e : Entry) (t : Text) : Except Fault Unit :=
  let body := if numberAt t 0 4 = 0x08074b50 ∧ 4 ≤ t.length then t.drop 4 else t
  if body.length < 12 then .error .truncated
  else if numberAt body 0 4 ≠ e.checksum then .error .checksumMismatch
  else .ok ()

/-- The contents have the announced size and checksum. -/
def check (e : Entry) (after contents : Text) : Except Fault Text :=
  if e.size < contents.length then .error .malformed
  else if contents.length < e.size then .error .truncated
  else if e.hasDescriptor then
    match e.checkDescriptor after with
    | .error f => .error f
    | .ok () =>
      if Archive.checksum contents ≠ e.checksum then .error .checksumMismatch else .ok contents
  else if e.checksum ≠ 0 ∧ Archive.checksum contents ≠ e.checksum then .error .checksumMismatch
  else .ok contents

/-- A reader of the entry's data: fails at once if the data cannot be found or the
    method is unknown, and otherwise gives the contents or the fault met in them. -/
def opened (archive image : Text) (e : Entry) : Except Fault (Except Fault Text) :=
  match e.dataOffset archive image with
  | .error f => .error f
  | .ok offset =>
    let raw := slice image offset e.dataSize
    let after := slice image (offset + e.dataSize) 16
    if e.method = 0 then .ok (e.check after raw)
    else if e.method = 8 then
      .ok (match inflate e.size raw with
        | .error f => .error f
        | .ok contents => e.check after contents)
    else .error .unknownMethod

end Entry

end Gauntlet.Archive
