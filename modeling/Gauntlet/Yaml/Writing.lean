import Gauntlet.Yaml.Scalar
import Gauntlet.Text.Quoted

/-! # Scalars as YAML

  A text is written plainly where that reads back as the same text. Otherwise it is
  quoted: a text with several lines as a literal block, one that would be taken for
  something else in double quotes, one with misplaced indicators in single quotes,
  and one with characters that cannot be shown in double quotes with escapes.
-/

namespace Gauntlet.Yaml

/-! ### Characters -/

def breaksLine (c : Char) : Bool :=
  c = '\n' || c = '\r' || c = '\u0085' || c = '\u2028' || c = '\u2029'

/-- A space or a tab. -/
def isGap (c : Char) : Bool := c = ' ' || c = '\t'

/-- A character that may be written as it is. -/
def isShown (c : Char) : Bool :=
  let n := c.toNat
  n == 0x0A || (0x20 ≤ n && n ≤ 0x7E) || (0xA0 ≤ n && n ≤ 0xD7FF) ||
  (0xE000 ≤ n && n ≤ 0xFFFD && n != 0xFEFF)

/-! ### What a text allows -/

/-- What stands in the way of writing a text plainly. -/
structure Traits where
  /-- It begins or goes on like a construct of a block. -/
  indicators : Bool := false
  breaks : Bool := false
  /-- A character cannot be shown. -/
  special : Bool := false
  tabs : Bool := false
  leadingSpace : Bool := false
  leadingBreak : Bool := false
  trailingSpace : Bool := false
  trailingBreak : Bool := false
  breakSpace : Bool := false
  spaceBreak : Bool := false
  deriving Inhabited

/-- The first character is taken for an indicator; `gap` tells that a gap or the end
    follows. -/
def startsConstruct (c : Char) (gap : Bool) : Bool :=
  "#,[]\x7b\x7d&*!|>'\"%@`".toList.contains c || ((c = '?' || c = ':' || c = '-') && gap)

/-- A later character is taken for an indicator. -/
def continuesConstruct (before c : Char) (gap : Bool) : Bool :=
  (c = ':' && gap) || (c = '#' && (isGap before || breaksLine before || before = '\x00'))

/-- The traits that the characters after `before` add. -/
def Traits.add (t : Traits) (before : Option Char) : List Char → Traits
  | [] => t
  | c :: rest =>
    let gap := match rest with
      | [] => true
      | d :: _ => isGap d
    let t := { t with
      indicators := t.indicators || (match before with
        | none => startsConstruct c gap
        | some b => continuesConstruct b c gap)
      tabs := t.tabs || c = '\t'
      special := t.special || (c ≠ '\t' && !isShown c)
      breaks := t.breaks || breaksLine c
      leadingSpace := t.leadingSpace || (before = none && c = ' ')
      leadingBreak := t.leadingBreak || (before = none && breaksLine c)
      trailingSpace := t.trailingSpace || (rest.isEmpty && c = ' ')
      trailingBreak := t.trailingBreak || (rest.isEmpty && breaksLine c)
      breakSpace := t.breakSpace || (c = ' ' && (match before with
        | some b => breaksLine b
        | none => false))
      spaceBreak := t.spaceBreak || (breaksLine c && before = some ' ') }
    t.add (some c) rest

def traits (cs : List Char) : Traits :=
  let marker := cs.take 3 = ['-', '-', '-'] ∨ cs.take 3 = ['.', '.', '.']
  Traits.add { indicators := marker } none cs

def Traits.plain (t : Traits) : Bool :=
  !(t.indicators || t.breaks || t.special || t.tabs || t.leadingSpace || t.leadingBreak ||
    t.trailingSpace || t.trailingBreak || t.breakSpace || t.spaceBreak)

def Traits.single (t : Traits) : Bool := !(t.breakSpace || t.spaceBreak || t.tabs || t.special)

def Traits.block (t : Traits) : Bool := !(t.trailingSpace || t.spaceBreak || t.special)

/-! ### Styles -/

/-- The characters as a text, each at its place; after a line break the next line is
    indented. `fresh` tells that a line has just begun, `broken` that a line break was
    written. -/
def indented (indent : Nat) (char : Char → Text) (fresh broken : Bool) : List Char → Text
  | [] => []
  | c :: rest =>
    if breaksLine c then String.utf8EncodeChar c ++ indented indent char true true rest
    else
      (if broken then (if fresh then [] else Text.single '\n') ++ Text.spaces indent else []) ++
        char c ++ indented indent char false false rest

/-- The hints after the mark of a literal block: a digit if the text begins with space,
    and how its last line ends. -/
def hints (cs : List Char) : Text :=
  let first := match cs with
    | c :: _ => c = ' ' || breaksLine c
    | [] => false
  let last := match cs.reverse with
    | [] => Text.single '-'
    | [c] => if breaksLine c then Text.single '+' else Text.single '-'
    | c :: d :: _ =>
      if !breaksLine c then Text.single '-'
      else if breaksLine d then Text.single '+'
      else []
  (if first then Text.single '4' else []) ++ last

def literal (indent : Nat) (cs : List Char) : Text :=
  Text.single '|' ++ hints cs ++ indented indent String.utf8EncodeChar false true cs

def singleChar (c : Char) : Text := if c = '\'' then "''" else String.utf8EncodeChar c

def singleQuoted (indent : Nat) (cs : List Char) : Text :=
  Text.single '\'' ++ indented indent singleChar false false cs ++ Text.single '\''

def escape (c : Char) : Text :=
  let n := c.toNat
  match [(0x00, "0"), (0x07, "a"), (0x08, "b"), (0x09, "t"), (0x0A, "n"), (0x0B, "v"), (0x0C, "f"),
      (0x0D, "r"), (0x1B, "e"), (0x22, "\""), (0x5C, "\\"), (0x85, "N"), (0xA0, "_"),
      (0x2028, "L"), (0x2029, "P")].lookup n with
  | some s => "\\" ++ Text.ofString s
  | none =>
    if n ≤ 0xFF then "\\x" ++ Text.upper (Text.hexDigits 2 n)
    else if n ≤ 0xFFFF then "\\u" ++ Text.upper (Text.hexDigits 4 n)
    else "\\U" ++ Text.upper (Text.hexDigits 8 n)

def doubleChar (c : Char) : Text :=
  if !isShown c || breaksLine c || c = '"' || c = '\\' then escape c else String.utf8EncodeChar c

/-- A text in double quotes. After a byte order mark at the start, every character is
    escaped. -/
def doubleQuoted (cs : List Char) : Text :=
  "\"" ++ cs.flatMap (if cs.head? = some '\ufeff' then escape else doubleChar) ++ "\""

/-! ### Texts -/

/-- The words that older readers take for truth values. -/
def oldTruthWords : List Text :=
  ["y", "Y", "yes", "Yes", "YES", "on", "On", "ON", "n", "N", "no", "No", "NO", "off", "Off",
    "OFF"].map Text.ofString

/-- The digits of a sexagesimal place: one or two, the first of two at most 5. -/
def isSixty (t : Text) : Bool :=
  match t with
  | [a] => Text.isDigit a
  | [a, b] => Text.isDigit a && a ≤ 53 && Text.isDigit b
  | _ => false

/-- A number in base sixty, as older readers take it. -/
def isSexagesimal (t : Text) : Bool :=
  let body := match t with
    | 43 :: r => r
    | 45 :: r => r
    | _ => t
  match Text.splitOn 58 body with
  | first :: mid :: more =>
    let places := mid :: more
    let last := places.getLast (by simp [places])
    let lastWhole := last.takeWhile (· ≠ 46)
    let lastRest := last.dropWhile (· ≠ 46)
    (match first with
      | d :: ds => Text.isDigit d && ds.all fun b => Text.isDigit b || b = 95
      | [] => false) &&
    places.dropLast.all isSixty && isSixty lastWhole &&
    (lastRest.drop 1).all (fun b => Text.isDigit b || b = 95)
  | _ => false

/-- Written plainly, the text would be read back as a text. -/
def readsAsText (t : Text) : Bool :=
  (Meaning.ofText true t).tag = Tag.str && !isSexagesimal t && !oldTruthWords.contains t

/-- A text of characters, written at an indentation. -/
def ofChars (indent : Nat) (asText : Bool) (cs : List Char) : Text :=
  let t := traits cs
  if cs.contains '\n' then if t.block then literal indent cs else doubleQuoted cs
  else if !asText then doubleQuoted cs
  else if t.plain then Text.ofChars cs
  else if t.single then singleQuoted indent cs
  else doubleQuoted cs

/-! ### Bytes -/

def base64Digit (n : Nat) : UInt8 :=
  if n < 26 then (n + 65).toUInt8
  else if n < 52 then (n + 71).toUInt8
  else if n < 62 then (n - 4).toUInt8
  else if n = 62 then 43
  else 47

def base64 : Text → Text
  | [] => []
  | [a] => [base64Digit (a.toNat / 4), base64Digit (a.toNat % 4 * 16), 61, 61]
  | [a, b] =>
    [base64Digit (a.toNat / 4), base64Digit (a.toNat % 4 * 16 + b.toNat / 16),
      base64Digit (b.toNat % 16 * 4), 61]
  | a :: b :: c :: rest =>
    base64Digit (a.toNat / 4) :: base64Digit (a.toNat % 4 * 16 + b.toNat / 16) ::
      base64Digit (b.toNat % 16 * 4 + c.toNat / 64) :: base64Digit (c.toNat % 64) :: base64 rest

/-- A text cut into lines of seventy bytes. -/
def lines70 : (fuel : Nat) → Text → Text
  | 0, t => t
  | k + 1, t => if t = [] then [] else t.take 70 ++ "\n" ++ lines70 k (t.drop 70)

/-- Bytes that are no text. -/
def binary (indent : Nat) (t : Text) : Text :=
  let b := base64 t
  let b := if b.length < 70 then b else lines70 b.length b
  "!!binary " ++ ofChars indent true (b.map fun x => Char.ofNat x.toNat)

def ofText (indent : Nat) (t : Text) : Text :=
  if Text.isUtf8 t then ofChars indent (readsAsText t) ((Text.glyphs t).map Text.Glyph.shown)
  else binary indent t

end Gauntlet.Yaml
