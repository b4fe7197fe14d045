import Gauntlet.Text.CodePoint
import Gauntlet.Text.Printable

/-! # Quoted text

  Messages quote names and commands. Printable characters stand for themselves,
  the quote and the backslash get a backslash, and everything else is written as
  an escape: a letter for the common control characters, `\x` with two digits
  for other control characters and stray bytes, `\u` with four or `\U` with
  eight digits for unprintable characters.
-/

namespace Gauntlet.Text

/-- The lower-case hexadecimal digit of a number below sixteen. -/
def hexDigit (n : Nat) : UInt8 := if n < 10 then (48 + n).toUInt8 else (87 + n).toUInt8

/-- The lowest `width` hexadecimal digits of a number. -/
def hexDigits : (width n : Nat) → Text
  | 0, _ => []
  | w + 1, n => hexDigits w (n / 16) ++ [hexDigit (n % 16)]

/-- The bytes of a text in hexadecimal. -/
def hex (t : Text) : Text := t.flatMap fun b => hexDigits 2 b.toNat

/-- The value of a hexadecimal digit of either case. -/
def hexValue (b : UInt8) : Nat :=
  if isDigit b then b.toNat - 48 else if isLower b then b.toNat - 87 else b.toNat - 55

/-- The bytes of pairs of hexadecimal digits. -/
def ofHex : Text → Text
  | a :: b :: t => (hexValue a * 16 + hexValue b).toUInt8 :: ofHex t
  | _ => []

def quotedChar (c : Char) : Text :=
  if c = '"' then "\\\""
  else if c = '\\' then "\\\\"
  else if isPrintable c then ofChars [c]
  else if c.toNat = 7 then "\\a"
  else if c.toNat = 8 then "\\b"
  else if c.toNat = 12 then "\\f"
  else if c = '\n' then "\\n"
  else if c = '\r' then "\\r"
  else if c = '\t' then "\\t"
  else if c.toNat = 11 then "\\v"
  else if c.toNat < 0x20 ∨ c.toNat = 0x7F then "\\x" ++ hexDigits 2 c.toNat
  else if c.toNat < 0x10000 then "\\u" ++ hexDigits 4 c.toNat
  else "\\U" ++ hexDigits 8 c.toNat

def quotedGlyph : Glyph → Text
  | .scalar c => quotedChar c
  | .stray b => "\\x" ++ hexDigits 2 b.toNat

def quoted (t : Text) : Text := "\"" ++ (glyphs t).flatMap quotedGlyph ++ "\""

end Gauntlet.Text
