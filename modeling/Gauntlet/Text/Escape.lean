import Gauntlet.Text.CodePoint

/-! # Terminal escape sequences

  Program output may hold terminal escape sequences; a log keeps the text
  without them. A sequence is an introducer (ESC or CSI), any number of the
  characters `[ ] ( ) # ; ?`, and then one of two bodies:

  - letters, digits and semicolons, closed by BEL;
  - optional numeric parameters, of at most four digits each, and a final
    character.

  Where several readings exist the one that takes more introducer characters
  wins, then the body closed by BEL, then the one with more parameters. No
  sequence holds a line break, so stripping line by line strips the whole text.
-/

namespace Gauntlet.Text

namespace Escape

/-- ESC or the one-character CSI. -/
def isIntroducer (g : Glyph) : Bool := g = .scalar '\x1b' || g = .scalar '\u009b'

/-- A scalar that satisfies `p`. -/
def holds (p : Char → Bool) : Glyph → Bool
  | .scalar c => p c
  | .stray _ => false

/-- A character that may follow the introducer any number of times. -/
def isOpening : Glyph → Bool := holds fun c => "[]()#;?".toList.contains c

/-- An ASCII digit. -/
def isDigit : Glyph → Bool := holds Char.isDigit

/-- A character of a body closed by BEL. -/
def isPayload : Glyph → Bool := holds fun c => c.isAlphanum || c == ';'

/-- A character that ends a sequence. -/
def isFinal : Glyph → Bool := holds fun c =>
  c.isDigit || ('A' ≤ c && c ≤ 'P') || ('f' ≤ c && c ≤ 'n') || "RZctqry=><~".toList.contains c

/-- The rest after a body closed by BEL. -/
def afterBell? (gs : List Glyph) : Option (List Glyph) :=
  match gs.dropWhile isPayload with
  | .scalar c :: rest => if c.toNat = 7 then some rest else none
  | _ => none

/-- Every point at which numeric parameters may stop, longest first, when the
    current parameter may take `budget` more digits. -/
def stops : (budget : Nat) → List Glyph → List (List Glyph)
  | _, [] => [[]]
  | budget, g :: rest =>
    if isDigit g then
      match budget with
      | 0 => [g :: rest]
      | k + 1 => stops k rest ++ [g :: rest]
    else if g = .scalar ';' then stops 4 rest ++ [g :: rest]
    else [g :: rest]

def afterFinal? : List Glyph → Option (List Glyph)
  | g :: rest => if isFinal g then some rest else none
  | [] => none

/-- The rest after optional parameters and a final character. -/
def afterParameters? : List Glyph → Option (List Glyph)
  | [] => none
  | g :: rest =>
    if isDigit g then ((stops 3 rest).findSome? afterFinal?) <|> afterFinal? (g :: rest)
    else afterFinal? (g :: rest)

def afterBody? (gs : List Glyph) : Option (List Glyph) :=
  afterBell? gs <|> afterParameters? gs

/-- The rest after opening characters and a body. -/
def afterIntroducer? : List Glyph → Option (List Glyph)
  | [] => none
  | g :: rest =>
    if isOpening g then afterIntroducer? rest <|> afterBody? (g :: rest)
    else afterBody? (g :: rest)

/-- The glyphs outside escape sequences, when the first `skip` glyphs belong to
    a sequence already. -/
def outside : (skip : Nat) → List Glyph → List Glyph
  | _, [] => []
  | k + 1, _ :: gs => outside k gs
  | 0, g :: gs =>
    if isIntroducer g then
      match afterIntroducer? gs with
      | some rest => outside (gs.length - rest.length) gs
      | none => g :: outside 0 gs
    else g :: outside 0 gs

end Escape

/-- The text without terminal escape sequences. -/
def withoutEscapes (t : Text) : Text := ofGlyphs (Escape.outside 0 (glyphs t))

end Gauntlet.Text
