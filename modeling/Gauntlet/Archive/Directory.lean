import Gauntlet.Archive.Entry

/-! # The directory of an archive

  An archive ends with a record that says where its directory lies. The record is
  searched from the end of the file; the file may have other data in front. The
  directory is a row of headers, read until one is malformed; then their number
  must agree, modulo 65536, with the announced one.
-/

namespace Gauntlet.Archive

/-! ### Headers -/

/-- The change time that a directory entry gives in the format of DOS. -/
def dosTime (date time : Nat) : Instant :=
  Instant.ofDate (date / 512 + 1980) (date / 32 % 16) (date % 32) (time / 2048) (time / 32 % 64)
    (time % 32 * 2)

/-- The instant of a number of 100-nanosecond ticks since 1601. -/
def tickTime (ticks : Int) : Instant :=
  let t := signed64 ticks
  Instant.ofNanos ((-11644473600 + t.tdiv 10000000) * 1000000000 + 100 * t.tmod 10000000)

/-- What the extra fields of a header can change. -/
structure Extras where
  size : Nat
  compressedSize : Nat
  headerOffset : Int
  modified : Option Instant := none
  /-- The sizes and the offset that still have to be found. -/
  needSize : Bool
  needCompressed : Bool
  needOffset : Bool

/-- A 64-bit number at the front of a field, if it is wanted. -/
def wideField (needed : Bool) (field : Text) : Except Fault (Option Nat × Text) :=
  if !needed then .ok (none, field)
  else if field.length < 8 then .error .malformed
  else .ok (some (numberAt field 0 8), field.drop 8)

/-- The sizes and the offset of a large entry. -/
def Extras.wide (x : Extras) (field : Text) : Except Fault Extras :=
  match wideField x.needSize field with
  | .error f => .error f
  | .ok (size, field) =>
    match wideField x.needCompressed field with
    | .error f => .error f
    | .ok (compressed, field) =>
      match wideField x.needOffset field with
      | .error f => .error f
      | .ok (offset, _) => .ok { x with
          size := size.getD x.size
          compressedSize := compressed.getD x.compressedSize
          headerOffset := (offset.map fun n => signed64 n).getD x.headerOffset
          needSize := false, needCompressed := false, needOffset := false }

/-- The last change time among the attributes of a field of ticks. -/
def tickAttributes : (fuel : Nat) → Text → Option Instant → Option Instant
  | 0, _, found => found
  | k + 1, t, found =>
    if t.length < 4 then found
    else
      let tag := numberAt t 0 2
      let size := numberAt t 2 2
      let body := t.drop 4
      if body.length < size then found
      else
        let found := if tag = 1 ∧ size = 24 then some (tickTime (numberAt body 0 8)) else found
        tickAttributes k (body.drop size) found

def Extras.field (x : Extras) (tag : Nat) (field : Text) : Except Fault Extras :=
  match tag with
  | 0x0001 => x.wide field
  | 0x000a =>
    .ok (if field.length < 4 then x
      else { x with modified := tickAttributes field.length (field.drop 4) x.modified })
  | 0x000d | 0x5855 =>
    .ok (if field.length < 8 then x else { x with modified := some ⟨numberAt field 4 4, 0⟩ })
  | 0x5455 =>
    .ok (if field.length < 5 ∨ numberAt field 0 1 % 2 = 0 then x
      else { x with modified := some ⟨numberAt field 1 4, 0⟩ })
  | _ => .ok x

/-- Takes all extra fields into account; a field that is cut off ends them. -/
def Extras.fields : (fuel : Nat) → Extras → Text → Except Fault Extras
  | 0, x, _ => .ok x
  | k + 1, x, t =>
    if t.length < 4 then .ok x
    else
      let size := numberAt t 2 2
      let body := t.drop 4
      if body.length < size then .ok x
      else match x.field (numberAt t 0 2) (body.take size) with
        | .error f => .error f
        | .ok x => Extras.fields k x (body.drop size)

/-- The largest 32-bit number, which stands for a number given elsewhere. -/
def elsewhere : Nat := 0xFFFFFFFF

/-- Reads one header: the entry and what follows. -/
def readHeader (t : Text) : Except Fault (Entry × Text) :=
  let head := t.take 46
  if head = [] then .error .ended
  else if head.length < 46 then .error .truncated
  else if numberAt head 0 4 ≠ 0x02014b50 then .error .malformed
  else
    let nameLength := numberAt head 28 2
    let extraLength := numberAt head 30 2
    let commentLength := numberAt head 32 2
    let length := nameLength + extraLength + commentLength
    let rest := t.drop 46
    let tail := rest.take length
    if tail.length < length then .error (if tail = [] then .ended else .truncated)
    else
      let size := numberAt head 24 4
      let compressedSize := numberAt head 20 4
      let offset := numberAt head 42 4
      let extra := (tail.drop nameLength).take extraLength
      match Extras.fields extra.length {
          size, compressedSize, headerOffset := offset
          needSize := size = elsewhere
          needCompressed := compressedSize = elsewhere
          needOffset := offset = elsewhere } extra with
      | .error f => .error f
      | .ok x =>
        if x.needCompressed || x.needOffset then .error .malformed
        else
          let dos := dosTime (numberAt head 14 2) (numberAt head 12 2)
          .ok ({
            name := tail.take nameLength
            creator := numberAt head 5 1
            attributes := numberAt head 38 4
            hasDescriptor := numberAt head 8 2 / 8 % 2 = 1
            method := numberAt head 10 2
            checksum := numberAt head 16 4
            compressedSize := x.compressedSize
            size := x.size
            modified := match x.modified with
              | some m => if m = Instant.yearOne then dos else m
              | none => dos
            headerOffset := x.headerOffset }, rest.drop length)

/-- Reads headers until one is malformed or cut off. -/
def readHeaders : (fuel : Nat) → Text → Except Fault (List Entry × Fault)
  | 0, _ => .ok ([], .truncated)
  | k + 1, t =>
    match readHeader t with
    | .error .malformed => .ok ([], .malformed)
    | .error .truncated => .ok ([], .truncated)
    | .error f => .error f
    | .ok (e, rest) =>
      match readHeaders k rest with
      | .error f => .error f
      | .ok (es, stop) => .ok (e :: es, stop)

/-! ### The end record -/

/-- Where the directory lies, as the end record says. -/
structure EndRecord where
  /-- The offset of the record in the file. -/
  offset : Int
  records : Nat
  size : Nat
  start : Nat

/-- The length of the end record without its comment. -/
def endLength : Nat := 22

/-- The last place in a text where an end record starts, with the text from there
    on. -/
def lastEnd : (offset : Nat) → Text → Option (Nat × Text)
  | _, [] => none
  | offset, b :: t =>
    match lastEnd (offset + 1) t with
    | some found => some found
    | none =>
      if [80, 75, 5, 6].isPrefixOf (b :: t) && endLength ≤ (b :: t).length then some (offset, b :: t)
      else none

/-- The end record in the last `n` bytes of a file; its comment must be complete. -/
def endWithin (image : Text) (n : Nat) : Option EndRecord :=
  let skipped := image.length - n
  match lastEnd skipped (image.drop skipped) with
  | none => none
  | some (offset, t) =>
    if t.length < numberAt t 20 2 + endLength then none
    else some {
      offset := offset, records := numberAt t 10 2, size := numberAt t 12 4
      start := numberAt t 16 4 }

/-- The offset of the wide end record, if the bytes before the end record point to
    one. -/
def wideEnd? (image : Text) (r : EndRecord) : Option Int :=
  if r.offset < 20 then none
  else
    let t := Entry.slice image (r.offset - 20) 20
    if numberAt t 0 4 = 0x07064b50 ∧ numberAt t 4 4 = 0 ∧ numberAt t 16 4 = 1 then
      let p := signed64 (numberAt t 8 8)
      if p < 0 then none else some p
    else none

def widened (image : Text) (r : EndRecord) : Except Fault EndRecord :=
  if r.records = 0xFFFF ∨ r.size = 0xFFFF ∨ r.start = elsewhere then
    match wideEnd? image r with
    | none => .ok r
    | some p =>
      let t := Entry.slice image p 56
      if t.length < 56 then .error .ended
      else if numberAt t 0 4 ≠ 0x06064b50 then .error .malformed
      else .ok {
        offset := p, records := numberAt t 32 8, size := numberAt t 40 8, start := numberAt t 48 8 }
  else .ok r

def endRecord (image : Text) : Except Fault EndRecord :=
  let near := min 1024 image.length
  let found := match endWithin image near with
    | some r => some r
    | none => if near = image.length then none else endWithin image (min (65 * 1024) image.length)
  match found with
  | none => .error .malformed
  | some r => widened image r

/-! ### The whole directory -/

def headerAt (image : Text) (offset : Nat) : Bool :=
  match readHeader (image.drop offset) with
  | .ok _ => true
  | .error _ => false

/-- How far the archive starts into the file. -/
def startOffset (image : Text) (r : EndRecord) : Except Fault Int :=
  if 0x8000000000000000 ≤ r.size ∨ 0x8000000000000000 ≤ r.start then .error .malformed
  else
    let base := signed64 (r.offset - r.size - r.start)
    let first := signed64 (base + r.start)
    if first < 0 ∨ (image.length : Int) ≤ first then .error .malformed
    else if 0 < base ∧ headerAt image r.start then .ok 0
    else .ok base

def entries (image : Text) : Except Fault (List Entry) :=
  match endRecord image with
  | .error f => .error f
  | .ok r =>
    match startOffset image r with
    | .error f => .error f
    | .ok base =>
      match readHeaders image.length (image.drop (base + r.start).toNat) with
      | .error f => .error f
      | .ok (es, stop) =>
        if es.length % 65536 = r.records % 65536 then
          .ok (es.map fun e => { e with headerOffset := signed64 (e.headerOffset + base) })
        else .error stop

end Gauntlet.Archive
