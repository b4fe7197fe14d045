/-! # Prefix codes

  A canonical prefix code is given by the code length of each symbol: codes of
  one length are consecutive numbers in symbol order, and shorter codes come
  first. A code must be complete, or consist of a single code of length one.
-/

namespace Gauntlet.Archive

/-- A canonical prefix code. -/
structure PrefixCode where
  /-- How many bits are wanted before a symbol is looked up. -/
  wanted : Nat := 0
  /-- The number of codes of each length. -/
  counts : Array Nat := Array.replicate 16 0
  /-- The symbols by code length, then by number. -/
  symbols : Array Nat := #[]
  deriving Inhabited

namespace PrefixCode

def maxLength : Nat := 15

/-- The number of codes of each length. -/
def countLengths (lengths : List Nat) : Array Nat :=
  lengths.foldl (fun counts n => if n = 0 then counts else counts.modify n (· + 1))
    (Array.replicate 16 0)

/-- The code that would follow the last one of length `n`. -/
def nextCode (counts : Array Nat) : Nat → Nat
  | 0 => 0
  | n + 1 => 2 * nextCode counts n + counts.getD (n + 1) 0

/-- The symbols with a given code length, in order. -/
def symbolsOf (lengths : List Nat) (n : Nat) : List Nat :=
  lengths.zipIdx.filterMap fun (m, i) => if m = n then some i else none

/-- The code with the given lengths; without any code the tables of `previous`
    stay. -/
def ofLengths? (previous : PrefixCode) (lengths : List Nat) : Option PrefixCode :=
  let used := lengths.filter (· ≠ 0)
  match used.max?, used.min? with
  | some longest, some shortest =>
    let counts := countLengths lengths
    let next := nextCode counts longest
    if next = 1 <<< longest ∨ (next = 1 ∧ longest = 1) then
      some {
        wanted := shortest
        counts
        symbols := ((List.range maxLength).flatMap fun n => symbolsOf lengths (n + 1)).toArray }
    else none
  | _, _ => some { previous with wanted := 0 }

/-- Looks for a code of length `n` or more, where the bits read so far make the
    number `code`, the codes of this length start at `first`, and `index` symbols
    have shorter codes. -/
def lookupFrom (c : PrefixCode) : (steps n : Nat) → (code first index bits : Nat) → Option (Nat × Nat)
  | 0, _, _, _, _, _ => none
  | k + 1, n, code, first, index, bits =>
    let code := 2 * code + bits % 2
    let first := 2 * first
    let count := c.counts.getD n 0
    if code < first + count then some (c.symbols.getD (index + (code - first)) 0, n)
    else lookupFrom c k (n + 1) code (first + count) (index + count) (bits / 2)

/-- The symbol whose code starts the bits, lowest first, and the code's length. -/
def lookup (c : PrefixCode) (bits : Nat) : Option (Nat × Nat) :=
  lookupFrom c maxLength 1 0 0 0 bits

end PrefixCode

end Gauntlet.Archive
