import Gauntlet.Yaml.Fault

/-! # The characters of a document

  A document is UTF-8, or UTF-16 with a byte order mark. It is taken in blocks of
  512 bytes, and a block with a malformed or forbidden character cannot be taken
  whole: its fault is met as soon as the first character of the block is wanted.
-/

namespace Gauntlet.Yaml

/-- The characters that can be read, and the fault met after them. -/
structure Reading where
  chars : List Char
  /-- The number of characters in each block. -/
  lengths : List Nat := []
  fault : Option Fault := none
  /-- The characters of the faulty block that stand before the fault. -/
  spoilt : List Char := []
  deriving Inhabited

namespace Reading

/-- The number of bytes taken at a time. -/
def blockSize : Nat := 512

/-- The characters that a document may hold. -/
def allowed (n : Nat) : Bool :=
  n = 0x09 || n = 0x0A || n = 0x0D || (0x20 ≤ n && n ≤ 0x7E) || n = 0x85 ||
  (0xA0 ≤ n && n ≤ 0xD7FF) || (0xE000 ≤ n && n ≤ 0xFFFD) || (0x10000 ≤ n && n ≤ 0x10FFFF)

/-- One step of decoding: a character and the rest, or that more bytes are wanted. -/
inductive Step where
  | char (code : Nat) (rest : Text)
  | wantMore

/-- The length of the UTF-8 sequence that a byte starts; zero if it starts none. -/
def sequenceLength (b : UInt8) : Nat :=
  if b < 0x80 then 1
  else if b &&& 0xE0 = 0xC0 then 2
  else if b &&& 0xF0 = 0xE0 then 3
  else if b &&& 0xF8 = 0xF0 then 4
  else 0

/-- The payload of the first byte of a sequence. -/
def leadPayload (b : UInt8) : Nat → Nat
  | 1 => b.toNat % 128
  | 2 => b.toNat % 32
  | 3 => b.toNat % 16
  | _ => b.toNat % 8

/-- The least code that needs a sequence of a given length. -/
def leastCode : Nat → Nat
  | 1 => 0
  | 2 => 0x80
  | 3 => 0x800
  | _ => 0x10000

/-- One UTF-8 sequence; `last` tells that no bytes follow. -/
def stepUtf8 (last : Bool) (t : Text) : Except Fault Step :=
  match t with
  | [] => .ok .wantMore
  | b :: _ =>
    let n := sequenceLength b
    if n = 0 then .error (.ofCharacter "invalid leading UTF-8 octet")
    else if t.length < n then
      if last then .error (.ofCharacter "incomplete UTF-8 octet sequence") else .ok .wantMore
    else
      let tail := (t.drop 1).take (n - 1)
      if tail.any fun c => c &&& 0xC0 ≠ 0x80 then
        .error (.ofCharacter "invalid trailing UTF-8 octet")
      else
        let code := tail.foldl (fun acc c => acc * 64 + c.toNat % 64) (leadPayload b n)
        if code < leastCode n then .error (.ofCharacter "invalid length of a UTF-8 sequence")
        else if (0xD800 ≤ code ∧ code ≤ 0xDFFF) ∨ 0x10FFFF < code then
          .error (.ofCharacter "invalid Unicode character")
        else .ok (.char code (t.drop n))

def unit (bigEndian : Bool) (a b : UInt8) : Nat :=
  if bigEndian then a.toNat * 256 + b.toNat else b.toNat * 256 + a.toNat

/-- One UTF-16 character; `last` tells that no bytes follow. -/
def stepUtf16 (bigEndian last : Bool) (t : Text) : Except Fault Step :=
  match t with
  | [] => .ok .wantMore
  | [_] => if last then .error (.ofCharacter "incomplete UTF-16 character") else .ok .wantMore
  | a :: b :: rest =>
    let u := unit bigEndian a b
    if u / 1024 = 0x37 then .error (.ofCharacter "unexpected low surrogate area")
    else if u / 1024 = 0x36 then
      match rest with
      | c :: d :: rest =>
        let v := unit bigEndian c d
        if v / 1024 ≠ 0x37 then .error (.ofCharacter "expected low surrogate area")
        else .ok (.char (0x10000 + u % 1024 * 1024 + v % 1024) rest)
      | _ =>
        if last then .error (.ofCharacter "incomplete UTF-16 surrogate pair") else .ok .wantMore
    else .ok (.char u rest)

/-- The characters of a block, and the bytes left over or the fault that follows them. -/
def block (step : Text → Except Fault Step) :
    (fuel : Nat) → (acc : List Char) → Text → List Char × Except Fault Text
  | 0, acc, t => (acc.reverse, .ok t)
  | k + 1, acc, t =>
    match step t with
    | .error f => (acc.reverse, .error f)
    | .ok .wantMore => (acc.reverse, .ok t)
    | .ok (.char code rest) =>
      if allowed code then block step k (Char.ofNat code :: acc) rest
      else (acc.reverse, .error (.ofCharacter "control characters are not allowed"))

/-- The characters of the blocks, with `left` bytes left over from the one before and
    room for `size` bytes in all; an unfinished character at the end is a fault of its
    own. -/
def blocks (step : Bool → Text → Except Fault Step) :
    (fuel : Nat) → (size : Nat) → (left input : Text) → Reading
  | 0, _, _, _ => { chars := [] }
  | k + 1, size, left, input =>
    let raw := left ++ input.take (size - left.length)
    match block (step (input = [])) (raw.length + 1) [] raw with
    | (cs, .error f) => { chars := [], fault := some f, spoilt := cs }
    | (cs, .ok left') =>
      if input = [] then { chars := cs, lengths := [cs.length] }
      else
        let more := blocks step k blockSize left' (input.drop (size - left.length))
        { more with chars := cs ++ more.chars, lengths := cs.length :: more.lengths }

/-- The characters of a document. The mark of the encoding takes room in the first
    block. -/
def ofText (t : Text) : Reading :=
  let go (step : Bool → Text → Except Fault Step) (mark : Nat) : Reading :=
    blocks step (t.length + 2) (blockSize - mark) [] (t.drop mark)
  match t with
  | 0xFF :: 0xFE :: _ => go (stepUtf16 false) 2
  | 0xFE :: 0xFF :: _ => go (stepUtf16 true) 2
  | 0xEF :: 0xBB :: 0xBF :: _ => go stepUtf8 3
  | [] => { chars := ['\n'], lengths := [1] }
  | _ => go stepUtf8 0

end Reading

end Gauntlet.Yaml
