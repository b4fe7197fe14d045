import Gauntlet.Text

/-! # Reading bytes as characters

  A byte string need not be UTF-8. Reading it gives a list of glyphs: each is
  either a Unicode scalar value or one stray byte that starts no well-formed
  sequence. A malformed sequence gives up one byte only; what follows is read
  afresh.

  Writing the glyphs gives the bytes back, so nothing is lost by the reading.
-/

namespace Gauntlet.Text

/-- A character of a byte string, or a byte that belongs to none. -/
inductive Glyph where
  /-- A well-formed UTF-8 sequence. -/
  | scalar (c : Char)
  /-- A byte that starts no well-formed sequence. -/
  | stray (b : UInt8)
  deriving DecidableEq, Repr

namespace Glyph

def bytes : Glyph → Text
  | scalar c => String.utf8EncodeChar c
  | stray b => [b]

/-- The character, with U+FFFD standing for a stray byte. -/
def shown : Glyph → Char
  | scalar c => c
  | stray _ => '�'

/-- A continuation byte within the given bounds. -/
def within (lo hi b : UInt8) : Bool := lo ≤ b && b ≤ hi

/-- The six payload bits of a continuation byte. -/
def payload (b : UInt8) : Nat := b.toNat % 64

/-- The bounds that a lead byte sets on the byte after it; they exclude overlong
    forms, surrogates and values past U+10FFFF. -/
def secondBounds (lead : UInt8) : UInt8 × UInt8 :=
  if lead = 0xE0 then (0xA0, 0xBF)
  else if lead = 0xED then (0x80, 0x9F)
  else if lead = 0xF0 then (0x90, 0xBF)
  else if lead = 0xF4 then (0x80, 0x8F)
  else (0x80, 0xBF)

/-- The character that `lead` and the bytes after it spell, and how many of
    those bytes it takes. -/
def read? (lead : UInt8) (rest : Text) : Option (Char × Nat) :=
  let (lo, hi) := secondBounds lead
  if lead < 0x80 then some (Char.ofNat lead.toNat, 0)
  else if within 0xC2 0xDF lead then
    match rest with
    | b :: _ =>
      if within lo hi b then some (Char.ofNat (lead.toNat % 32 * 64 + payload b), 1) else none
    | [] => none
  else if within 0xE0 0xEF lead then
    match rest with
    | b :: c :: _ =>
      if within lo hi b && within 0x80 0xBF c then
        some (Char.ofNat ((lead.toNat % 16 * 64 + payload b) * 64 + payload c), 2)
      else none
    | _ => none
  else if within 0xF0 0xF4 lead then
    match rest with
    | b :: c :: d :: _ =>
      if within lo hi b && within 0x80 0xBF c && within 0x80 0xBF d then
        some (Char.ofNat (((lead.toNat % 8 * 64 + payload b) * 64 + payload c) * 64 + payload d), 3)
      else none
    | _ => none
  else none

/-- The glyphs of a text of which the first `skip` bytes have been read already. -/
def listAfter : (skip : Nat) → Text → List Glyph
  | _, [] => []
  | k + 1, _ :: t => listAfter k t
  | 0, b :: t =>
    match read? b t with
    | some (c, k) => scalar c :: listAfter k t
    | none => stray b :: listAfter 0 t

end Glyph

/-- The glyphs of a byte string. -/
def glyphs (t : Text) : List Glyph := Glyph.listAfter 0 t

def ofGlyphs (gs : List Glyph) : Text := gs.flatMap Glyph.bytes

def ofChars (cs : List Char) : Text := cs.flatMap String.utf8EncodeChar

/-- The text is well-formed UTF-8. -/
def isUtf8 (t : Text) : Bool := (glyphs t).all fun
  | .scalar _ => true
  | .stray _ => false

/-- The text as a string, with U+FFFD for each stray byte. -/
def shown (t : Text) : String := String.ofList ((glyphs t).map Glyph.shown)

/-! ### Blank characters -/

/-- The characters of the Unicode property White_Space. -/
def isBlank (c : Char) : Bool :=
  let n := c.toNat
  (9 ≤ n && n ≤ 13) || n == 0x20 || n == 0x85 || n == 0xA0 || n == 0x1680 ||
  (0x2000 ≤ n && n ≤ 0x200A) || n == 0x2028 || n == 0x2029 || n == 0x202F || n == 0x205F ||
  n == 0x3000

/-- A blank glyph; a stray byte is never blank. -/
def Glyph.isBlank : Glyph → Bool
  | scalar c => Text.isBlank c
  | stray _ => false

/-- The maximal runs of glyphs that are not blank. -/
def wordsOf : List Glyph → List (List Glyph)
  | [] => []
  | g :: gs =>
    if g.isBlank then wordsOf gs
    else match gs with
      | [] => [[g]]
      | h :: _ =>
        if h.isBlank then [g] :: wordsOf gs
        else match wordsOf gs with
          | [] => [[g]]
          | w :: ws => (g :: w) :: ws

def words (t : Text) : List Text := (wordsOf (glyphs t)).map ofGlyphs

/-- The text without blanks at its ends. -/
def trimmed (t : Text) : Text :=
  ofGlyphs (((glyphs t).dropWhile Glyph.isBlank).reverse.dropWhile Glyph.isBlank).reverse

end Gauntlet.Text
