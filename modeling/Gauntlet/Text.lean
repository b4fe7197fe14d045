/-! # Byte text

  Paths, command lines, program output and file contents are byte strings: the
  operating system promises no encoding. `Text` is the list of bytes, and a
  literal stands for its UTF-8 encoding.

  - `includes`, `startsWith`, `endsWith`, `after?` search by bytes.
  - `splitOn` and `intercalate` cut and join at a separator.
  - Operations that look at characters are in `Text.CodePoint`.
-/

namespace Gauntlet

/-- A byte string. -/
abbrev Text := List UInt8

namespace Text

/-! ### Literals -/

/-- The UTF-8 encoding of a string. -/
def ofString (s : String) : Text := s.toUTF8.data.toList

instance : Coe String Text := ⟨ofString⟩

/-- The byte of an ASCII character. -/
def byte (c : Char) : UInt8 := c.toNat.toUInt8

/-- The text of one ASCII character. -/
def single (c : Char) : Text := [byte c]

/-! ### Order -/

/-- The order of texts is transitive, as the keys of a map have to be. -/
instance instTransLt : Trans (α := Text) (· < ·) (· < ·) (· < ·) := List.instTransLt

/-! ### Searching -/

/-- `t` begins with `lead`. -/
def startsWith (t lead : Text) : Bool := lead.isPrefixOf t

/-- `t` ends with `tail`. -/
def endsWith (t tail : Text) : Bool := tail.isSuffixOf t

/-- What follows `lead` at the start of a text, if it is there. -/
def after? : (lead t : Text) → Option Text
  | [], t => some t
  | _ :: _, [] => none
  | a :: lead, b :: t => if a = b then after? lead t else none

/-- `needle` occurs somewhere in the text. -/
def includes : (t needle : Text) → Bool
  | [], needle => needle.isEmpty
  | b :: t, needle => startsWith (b :: t) needle || includes t needle

/-- The text before and after the first occurrence of byte `b`. -/
def cut? (b : UInt8) : Text → Option (Text × Text)
  | [] => none
  | a :: t => if a = b then some ([], t) else (cut? b t).map fun (x, y) => (a :: x, y)

/-- The text before and after the last occurrence of byte `b`. -/
def cutLast? (b : UInt8) (t : Text) : Option (Text × Text) :=
  (cut? b t.reverse).map fun (x, y) => (y.reverse, x.reverse)

/-! ### Cutting and joining -/

/-- The pieces between the occurrences of byte `b`; there is always at least one. -/
def splitOn (b : UInt8) : Text → List Text
  | [] => [[]]
  | a :: t =>
    if a = b then [] :: splitOn b t
    else match splitOn b t with
      | [] => [[a]]
      | p :: ps => (a :: p) :: ps

/-- The pieces with `sep` between them. -/
def intercalate (sep : Text) : List Text → Text
  | [] => []
  | [p] => p
  | p :: q :: ps => p ++ sep ++ intercalate sep (q :: ps)

/-- `n` copies of a byte. -/
def repeated (b : UInt8) (n : Nat) : Text := List.replicate n b

/-- `n` spaces. -/
def spaces (n : Nat) : Text := repeated 32 n

/-! ### ASCII classes and case -/

/-- An ASCII decimal digit. -/
def isDigit (b : UInt8) : Bool := 48 ≤ b && b ≤ 57

/-- An ASCII lower-case letter. -/
def isLower (b : UInt8) : Bool := 97 ≤ b && b ≤ 122

/-- An ASCII upper-case letter. -/
def isUpper (b : UInt8) : Bool := 65 ≤ b && b ≤ 90

/-- An ASCII letter. -/
def isLetter (b : UInt8) : Bool := isLower b || isUpper b

/-- ASCII letters in lower case, all other bytes as they are. -/
def lower (t : Text) : Text := t.map fun b => if isUpper b then b + 32 else b

/-- ASCII letters in upper case, all other bytes as they are. -/
def upper (t : Text) : Text := t.map fun b => if isLower b then b - 32 else b

/-! ### Order -/

/-- Byte order, the order of sorted file names. -/
def le (a b : Text) : Bool := decide (a ≤ b)

end Text

end Gauntlet
