import Gauntlet.Datum
import Gauntlet.Text.CodePoint
import Gauntlet.Text.Quoted

/-! # Data as JSON

  One item per line, two spaces more for each level, no newline at the end. In
  strings the characters that are special in HTML are escaped as well as those that
  JSON forbids, and a byte that belongs to no character is written as the escape of
  U+FFFD.
-/

namespace Gauntlet.Json

/-- Four hexadecimal digits. -/
def hex4 (n : Nat) : Text := Text.hexDigits 4 n

def char (c : Char) : Text :=
  if c = '"' then "\\\""
  else if c = '\\' then "\\\\"
  else if c = '\x08' then "\\b"
  else if c = '\x0c' then "\\f"
  else if c = '\n' then "\\n"
  else if c = '\r' then "\\r"
  else if c = '\t' then "\\t"
  else if c.toNat < 0x20 ∨ c = '<' ∨ c = '>' ∨ c = '&' ∨ c = '\u2028' ∨ c = '\u2029' then
    "\\u" ++ hex4 c.toNat
  else String.utf8EncodeChar c

def glyph : Text.Glyph → Text
  | .scalar c => char c
  | .stray _ => "\\ufffd"

def string (t : Text) : Text := "\"" ++ (Text.glyphs t).flatMap glyph ++ "\""

def newLine (level : Nat) : Text := "\n" ++ Text.spaces (2 * level)

mutual

def ofDatum (level : Nat) : Datum → Text
  | .text t => string t
  | .number n => Numeral.ofInt n
  | .truth b => if b then "true" else "false"
  | .instant z => string z.text
  | .list [] => "[]"
  | .list (d :: ds) =>
    "[" ++ newLine (level + 1) ++ ofDatum (level + 1) d ++ moreItems (level + 1) ds ++
      newLine level ++ "]"
  | .record [] => "\x7b\x7d"
  | .record (f :: fs) =>
    "\x7b" ++ newLine (level + 1) ++ ofField (level + 1) f ++ moreFields (level + 1) fs ++
      newLine level ++ "\x7d"

/-- The items after the first. -/
def moreItems (level : Nat) : List Datum → Text
  | [] => []
  | d :: ds => "," ++ newLine level ++ ofDatum level d ++ moreItems level ds

def ofField (level : Nat) : Text × Datum → Text
  | (name, d) => string name ++ ": " ++ ofDatum level d

/-- The fields after the first. -/
def moreFields (level : Nat) : List (Text × Datum) → Text
  | [] => []
  | f :: fs => "," ++ newLine level ++ ofField level f ++ moreFields level fs

end

/-! ### Instants -/

/-- Why an instant cannot be written. -/
inductive InstantFault where
  | year
  | zone
  deriving DecidableEq, Repr

def InstantFault.message (f : InstantFault) : Text :=
  "json: error calling MarshalJSON for type *time.Time: " ++ (match f with
    | year => "year outside of range [0,9999]"
    | zone => "timezone hour outside of range [0,23]")

/-- Years have four digits and zones less than 24 hours. -/
def instantFault? (z : ZonedInstant) : Option InstantFault :=
  if z.date.year < 0 ∨ 9999 < z.date.year then some .year
  else if 24 ≤ z.zoneMinutes.natAbs / 60 then some .zone
  else none

end Gauntlet.Json
