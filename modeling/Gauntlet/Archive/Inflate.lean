import Gauntlet.Archive.Fault
import Gauntlet.Archive.PrefixCode

/-! # Decompression

  Compressed data is a sequence of blocks: stored bytes, or symbols of a prefix
  code that stand for bytes and for copies of earlier output. Input is taken one
  byte at a time and only when bits are wanted, so the position at which an error
  is noticed is well defined.

  Output beyond the announced size is an error at once.
-/

namespace Gauntlet.Archive.Inflate

/-! ### Bits -/

/-- The input, with the bits taken from it and not yet used. -/
structure Source where
  /-- The bytes not yet taken. -/
  input : Text
  /-- Unused bits, the next one lowest. -/
  bits : Nat := 0
  /-- The number of unused bits. -/
  count : Nat := 0
  /-- The number of bytes taken. -/
  offset : Nat := 0

/-- Takes bytes until at least `n` bits are unused. -/
def Source.want (s : Source) (n : Nat) : Option Source :=
  go (n + 1) s
where
  go : Nat → Source → Option Source
    | 0, s => some s
    | k + 1, s =>
      if n ≤ s.count then some s
      else match s.input with
        | [] => none
        | b :: rest => go k {
            input := rest
            bits := s.bits + (b.toNat <<< s.count)
            count := s.count + 8
            offset := s.offset + 1 }

/-- Uses `n` bits. -/
def Source.use (s : Source) (n : Nat) : Nat × Source :=
  (s.bits % (1 <<< n), { s with bits := s.bits >>> n, count := s.count - n })

/-- What stops the decompression. -/
inductive Halt where
  /-- The data makes no sense. -/
  | fault (f : Fault)
  /-- The input ends between a symbol and its extra bits, which ends the data. -/
  | endOfInput

def Source.corrupt (s : Source) : Halt := .fault (.corrupt s.offset)

def Source.take (s : Source) (n : Nat) (missing : Halt) : Except Halt (Nat × Source) :=
  match s.want n with
  | none => .error missing
  | some s => .ok (s.use n)

/-- The next symbol of a code, once `n` bits are there. -/
def Source.symbolWith (c : PrefixCode) : (tries n : Nat) → Source → Except Halt (Nat × Source)
  | 0, _, s => .error s.corrupt
  | k + 1, n, s =>
    match s.want n with
    | none => .error (.fault .truncated)
    | some s =>
      match c.lookup s.bits with
      | none => .error s.corrupt
      | some (symbol, m) =>
        if m ≤ s.count then .ok (symbol, (s.use m).2) else symbolWith c k m s

def Source.symbol (s : Source) (c : PrefixCode) : Except Halt (Nat × Source) :=
  symbolWith c 17 c.wanted s

/-! ### Code tables -/

/-- The order in which the lengths of the length code are given. -/
def lengthOrder : List Nat :=
  [16, 17, 18, 0, 8, 7, 9, 6, 10, 5, 11, 4, 12, 3, 13, 2, 14, 1, 15]

/-- The code used when none is given. -/
def fixedCode : PrefixCode :=
  let lengths := List.replicate 144 8 ++ List.replicate 112 9 ++ List.replicate 24 7 ++
    List.replicate 8 8
  (PrefixCode.ofLengths? {} lengths).getD {}

def endOfBlock : Nat := 256

/-- One more than the largest literal or length symbol. -/
def literalLimit : Nat := 286

/-- One more than the largest distance symbol. -/
def distanceLimit : Nat := 30

/-- The lengths of the length code, in the order given. -/
def rawLengths : (n : Nat) → Source → Except Halt (List Nat × Source)
  | 0, s => .ok ([], s)
  | n + 1, s =>
    match s.take 3 (.fault .truncated) with
    | .error h => .error h
    | .ok (x, s) =>
      match rawLengths n s with
      | .error h => .error h
      | .ok (xs, s) => .ok (x :: xs, s)

/-- `total` code lengths, written with the length code; `acc` holds the ones read
    so far in reverse. -/
def codeLengths (c : PrefixCode) (total : Nat) :
    (fuel : Nat) → (acc : List Nat) → Source → Except Halt (List Nat × Source)
  | 0, acc, s => .ok (acc.reverse, s)
  | k + 1, acc, s =>
    if total ≤ acc.length then .ok (acc.reverse, s)
    else match s.symbol c with
      | .error h => .error h
      | .ok (x, s) =>
        let repeated (value least width : Nat) (s : Source) : Except Halt (List Nat × Source) :=
          match s.take width (.fault .truncated) with
          | .error h => .error h
          | .ok (n, s) =>
            if total < acc.length + least + n then .error s.corrupt
            else codeLengths c total k (List.replicate (least + n) value ++ acc) s
        if x < 16 then codeLengths c total k (x :: acc) s
        else if x = 16 then
          match acc with
          | [] => .error s.corrupt
          | last :: _ => repeated last 3 2 s
        else if x = 17 then repeated 0 3 3 s
        else repeated 0 11 7 s

/-- The two codes of a block: literals and lengths, distances. -/
structure Codes where
  literal : PrefixCode := {}
  distance : PrefixCode := {}

def readCodes (previous : Codes) (final : Bool) (s : Source) : Except Halt (Codes × Source) :=
  match s.want 14 with
  | none => .error (.fault .truncated)
  | some s =>
    let (hlit, s₁) := s.use 5
    let (hdist, s₂) := s₁.use 5
    let (hclen, s₃) := s₂.use 4
    if literalLimit < hlit + 257 then .error s.corrupt
    else if distanceLimit < hdist + 1 then .error s.corrupt
    else match rawLengths (hclen + 4) s₃ with
      | .error h => .error h
      | .ok (raw, s) =>
        let given := lengthOrder.zip raw
        let lengths := (List.range 19).map fun i => (given.lookup i).getD 0
        match PrefixCode.ofLengths? previous.literal lengths with
        | none => .error s.corrupt
        | some lengthCode =>
          let nlit := hlit + 257
          let total := nlit + hdist + 1
          match codeLengths lengthCode total total [] s with
          | .error h => .error h
          | .ok (all, s) =>
            match PrefixCode.ofLengths? lengthCode (all.take nlit),
                PrefixCode.ofLengths? previous.distance (all.drop nlit) with
            | some literal, some distance =>
              let wanted := max literal.wanted (all.getD endOfBlock 0)
              .ok ({
                literal := { literal with wanted := if final then wanted else wanted + 10 }
                distance }, s)
            | _, _ => .error s.corrupt

/-! ### Blocks -/

/-- The base length and the number of extra bits of a length symbol. -/
def lengthOf (symbol : Nat) : Nat × Nat :=
  if symbol < 265 then (symbol - 254, 0)
  else if symbol = 285 then (258, 0)
  else
    let extra := (symbol - 261) / 4
    (3 + ((4 + (symbol - 261) % 4) <<< extra), extra)

/-- The base distance and the number of extra bits of a distance symbol. -/
def distanceOf (symbol : Nat) : Nat × Nat :=
  if symbol < 4 then (symbol + 1, 0)
  else
    let extra := (symbol - 2) / 2
    (1 + ((2 + symbol % 2) <<< extra), extra)

/-- Copies `n` bytes from `distance` back. -/
def copyBack (distance : Nat) : (n : Nat) → Array UInt8 → Array UInt8
  | 0, out => out
  | n + 1, out => copyBack distance n (out.push (out.getD (out.size - distance) 0))

/-- The distance symbol after a length; without a code it has five bits, highest
    first. -/
def distanceSymbol (code : Option PrefixCode) (s : Source) : Except Halt (Nat × Source) :=
  match code with
  | some c => s.symbol c
  | none =>
    match s.take 5 .endOfInput with
    | .error h => .error h
    | .ok (x, s) =>
      .ok (x % 2 * 16 + x / 2 % 2 * 8 + x / 4 % 2 * 4 + x / 8 % 2 * 2 + x / 16 % 2, s)

/-- The symbols of a block up to its end, with output of at most `limit` bytes. -/
def symbols (limit : Nat) (literal : PrefixCode) (distance : Option PrefixCode) :
    (fuel : Nat) → Array UInt8 → Source → Array UInt8 × Except Halt Source
  | 0, out, s => (out, .error s.corrupt)
  | k + 1, out, s =>
    if limit < out.size then (out, .error (.fault .malformed))
    else match s.symbol literal with
      | .error h => (out, .error h)
      | .ok (x, s) =>
        if x < endOfBlock then symbols limit literal distance k (out.push x.toUInt8) s
        else if x = endOfBlock then (out, .ok s)
        else if literalLimit ≤ x then (out, .error s.corrupt)
        else
          let (base, extra) := lengthOf x
          match s.take extra .endOfInput with
          | .error h => (out, .error h)
          | .ok (more, s) =>
            match distanceSymbol distance s with
            | .error h => (out, .error h)
            | .ok (y, s) =>
              if distanceLimit ≤ y then (out, .error s.corrupt)
              else
                let (dbase, dextra) := distanceOf y
                match s.take dextra .endOfInput with
                | .error h => (out, .error h)
                | .ok (dmore, s) =>
                  if min out.size 32768 < dbase + dmore then (out, .error s.corrupt)
                  else symbols limit literal distance k
                    (copyBack (dbase + dmore) (base + more) out) s

/-- The bytes of a stored block. -/
def stored (out : Array UInt8) (s : Source) : Array UInt8 × Except Halt Source :=
  let aligned := (s.use (s.count % 8)).2
  let buffered := aligned.count / 8
  let kept : Text := (List.range buffered).map fun i => (aligned.bits >>> (8 * i)).toUInt8
  let header := kept ++ s.input.take (4 - buffered)
  let offset := s.offset + header.length
  match header with
  | [a, b, c, d] =>
    let n := a.toNat + 256 * b.toNat
    if n + (c.toNat + 256 * d.toNat) ≠ 65535 then (out, .error (.fault (.corrupt offset)))
    else
      let rest := s.input.drop (4 - buffered)
      let data := rest.take n
      let out := data.foldl Array.push out
      if data.length < n then (out, .error (.fault .truncated))
      else (out, .ok { input := rest.drop n, offset := offset + n })
  | _ => (out, .error (.fault .truncated))

/-- The blocks of compressed data, with output of at most `limit` bytes. -/
def blocks (limit : Nat) : (fuel : Nat) → Codes → Array UInt8 → Source → Array UInt8 × Option Halt
  | 0, _, out, s => (out, some s.corrupt)
  | k + 1, codes, out, s =>
    match s.want 3 with
    | none => (out, some (.fault .truncated))
    | some s =>
      let (head, s) := s.use 3
      let final := head % 2 = 1
      let next (codes : Codes) (r : Array UInt8 × Except Halt Source) :
          Array UInt8 × Option Halt :=
        match r with
        | (out, .error h) => (out, some h)
        | (out, .ok s) =>
          if limit < out.size then (out, some (.fault .malformed))
          else if final then (out, none)
          else blocks limit k codes out s
      match head / 2 with
      | 0 => next codes (stored out s)
      | 1 => next codes (symbols limit fixedCode none (8 * s.input.length + s.count + 1) out s)
      | 2 =>
        match readCodes codes final s with
        | .error h => (out, some h)
        | .ok (codes, s) =>
          next codes (symbols limit codes.literal (some codes.distance)
            (8 * s.input.length + s.count + 1) out s)
      | _ => (out, some s.corrupt)

end Inflate

/-- The bytes that compressed data stands for, if they are not more than `limit`. -/
def inflate (limit : Nat) (data : Text) : Except Fault Text :=
  let (out, halt) := Inflate.blocks limit (8 * data.length + 1) {} #[] { input := data }
  if limit < out.size then .error .malformed
  else match halt with
    | some (.fault f) => .error f
    | some .endOfInput => .ok out.toList
    | none => .ok out.toList

end Gauntlet.Archive
