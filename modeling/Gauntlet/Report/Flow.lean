import Gauntlet.Numeral
import Gauntlet.Text.Width

/-! # Fitting text into a column

  Text that is too wide for its column is set anew, word by word. `soft` moves a
  word that does not fit to a line of its own and fills the line before it with
  blanks; `hard` cuts it where the line ends. A word wider than the column is cut
  by both. Colours that are switched on when a line ends are switched off for the
  line break and on again after it.
-/

namespace Gauntlet.Report

open Text

/-! ### Colour -/

/-- Switches all colours off. -/
def plainColour : Text := "\x1b[0m"

/-- The sequence for a list of codes. -/
def colourOf (codes : Text) : Text := "\x1b[" ++ codes ++ "m"

/-- The text with every occurrence of `needle` replaced, `skip` bytes having been
    taken already. -/
def replaceAfter (needle new : Text) : (skip : Nat) → Text → Text
  | _, [] => []
  | k + 1, _ :: t => replaceAfter needle new k t
  | 0, b :: t =>
    if startsWith (b :: t) needle then new ++ replaceAfter needle new (needle.length - 1) t
    else b :: replaceAfter needle new 0 t

/-- The text in a colour, which comes back after each reset inside it. -/
def painted (codes t : Text) : Text :=
  let start := colourOf codes
  replaceAfter (start ++ plainColour) [] 0
    (start ++ replaceAfter plainColour (plainColour ++ start) 0 t ++ plainColour)

/-- The codes a number adds to or takes from those switched on. -/
def switched (codes : List Int) : Int → List Int
  | 0 => []
  | 22 => codes.filter fun c => c != 1 && c != 2
  | 23 => codes.filter (· != 3)
  | 24 => codes.filter (· != 4)
  | 25 => codes.filter fun c => c != 5 && c != 6
  | 27 => codes.filter (· != 7)
  | 29 => codes.filter (· != 9)
  | n => (n :: codes.filter (· != n)).mergeSort

/-- The value of decimal digits with an optional sign, if it fits 64 bits. -/
def code? (ds : List Char) : Option Int :=
  let (negative, digits) := match ds with
    | '-' :: r => (true, r)
    | '+' :: r => (false, r)
    | _ => (false, ds)
  if digits.isEmpty || !digits.all Char.isDigit then none
  else
    let n : Int := Nat.ofDigitChars 10 digits 0
    let n := if negative then -n else n
    if n < -0x8000000000000000 || 0x8000000000000000 ≤ n then none else some n

/-- The numbers between semicolons, blanks around them aside; other entries count for
    nothing. -/
def numbers (body : List Char) : List Int :=
  (body.splitOn ';').filterMap fun ds =>
    code? ((ds.dropWhile isBlank).reverse.dropWhile isBlank).reverse

/-- The characters without the first occurrence of `needle`. -/
def withoutFirst (needle : List Char) : List Char → List Char
  | [] => []
  | c :: cs =>
    if needle.isPrefixOf (c :: cs) then (c :: cs).drop needle.length
    else c :: withoutFirst needle cs

/-- What a whole sequence says, without its opening and its end. -/
def bodyOf (p : Place) (sequence : List Char) : List Char :=
  match p with
  | .colour => withoutFirst ['m'] (withoutFirst ['\x1b', '['] sequence)
  | _ => withoutFirst ['\\'] (withoutFirst ['\x1b', ']'] sequence)

/-- The codes switched on after some characters; `before` is the sequence under way, in
    reverse. -/
def codesAfter : Place → (before : List Char) → (codes : List Int) → List Char → List Int
  | _, _, codes, [] => codes
  | p, before, codes, c :: cs =>
    match p, p.after c with
    | .plain, .plain => codesAfter .plain [] codes cs
    | _, .plain =>
      codesAfter .plain [] ((numbers (bodyOf p (c :: before).reverse)).foldl switched codes) cs
    | _, q => codesAfter q (c :: before) codes cs

/-- The sequence that switches the codes on; nothing if there are none. -/
def colourFor (codes : List Int) : Text :=
  if codes.isEmpty then [] else colourOf (intercalate ";" (codes.map Numeral.ofInt))

/-! ### Lines under way -/

/-- The lines set so far. -/
structure Flow where
  /-- The text up to here. -/
  written : Text := []
  /-- The cells of the last line. -/
  filled : Nat := 0
  /-- The colours that are on. -/
  codes : List Int := []
  /-- The last sequence that switched a colour on. -/
  resume : Text := []

namespace Flow

/-- A line break that interrupts the colour `resume`. -/
def lineBreak (resume : Text) : Text :=
  (if resume.isEmpty then [] else plainColour) ++ "\n" ++ resume

/-- Fills the last line and begins a new one. -/
def endLine (limit : Nat) (f : Flow) : Flow :=
  { f with
    written := f.written ++ spaces (limit - f.filled) ++ lineBreak f.resume
    filled := 0 }

/-- Takes note of the colours of a word. -/
def seeing (f : Flow) (word : Text) : Flow :=
  let codes := codesAfter .plain [] f.codes (chars word)
  { f with codes, resume := if codes.isEmpty then f.resume else colourFor codes }

/-- Puts characters on the line, with a line break wherever it is full. `inside`
    says that a sequence is under way and `last` is the sequence read last. -/
def cutting (limit : Nat) : (inside : Bool) → (last : Text) → Flow → List Char → Flow
  | _, _, f, [] => f
  | inside, last, f, c :: cs =>
    let starts := c = '\x1b'
    let inside := inside || starts
    let last := if inside then (if starts then [] else last) ++ ofChars [c] else last
    let f := if f.filled = limit && !inside then
        { f with written := f.written ++ lineBreak last, filled := 0 }
      else f
    let f := { f with
      written := f.written ++ ofChars [c]
      filled := if inside then f.filled else f.filled + charWidth c }
    if inside && c = 'm' then cutting limit false (if last = plainColour then [] else last) f cs
    else cutting limit inside last f cs

/-- Puts a word on the line as it is. -/
def putting (f : Flow) (word : Text) : Flow :=
  { f with written := f.written ++ word, filled := f.filled + width word }

/-- Puts a word on the line, cutting it if it does not fit. -/
def hardWord (limit : Nat) (f : Flow) (word : Text) : Flow :=
  let f := f.seeing word
  let f := if 0 < f.filled then f.putting " " else f
  if f.filled + width word ≤ limit then f.putting word
  else f.cutting limit false f.resume (chars word)

/-- Puts a word on the line, or on a new one if it does not fit. -/
def softWord (limit : Nat) (f : Flow) (word : Text) : Flow :=
  let f := f.seeing word
  let gap : Text := if 0 < f.filled then " " else []
  if f.filled + gap.length + width word ≤ limit then (f.putting gap).putting word
  else
    let f := if 0 < f.filled then f.endLine limit else f
    if width word ≤ limit then f.putting word
    else f.cutting limit false f.resume (chars word)

/-- Puts the words one after another; a full line ends before the next word. -/
def putAll (limit : Nat) (put : Flow → Text → Flow) : Flow → List Text → Flow
  | f, [] => f
  | f, w :: ws =>
    let f := put f w
    putAll limit put (if f.filled = limit && !ws.isEmpty then f.endLine limit else f) ws

/-- The text of the words, its colours switched off at the end. -/
def ofWords (limit : Nat) (put : Flow → Text → Flow) (t : Text) : Text :=
  let f := putAll limit put {} (words t)
  f.written ++ (if f.resume.isEmpty || endsWith f.written plainColour then [] else plainColour)

end Flow

/-! ### Setting a text anew -/

/-- The parts between blank lines. -/
def paragraphs : Text → List Text
  | [] => [[]]
  | [b] => [[b]]
  | a :: b :: t =>
    if a = 10 && b = 10 then [] :: paragraphs t
    else match paragraphs (b :: t) with
      | [] => [[a]]
      | p :: ps => (a :: p) :: ps

/-- Keeps blank lines and sets each paragraph word by word. -/
def soft (limit : Nat) (t : Text) : Text :=
  if width t ≤ limit then t
  else intercalate "\n\n" ((paragraphs t).map (Flow.ofWords limit (Flow.softWord limit)))

/-- Keeps lines and sets each of them word by word. -/
def hard (limit : Nat) (t : Text) : Text :=
  if width t ≤ limit then t
  else intercalate "\n" ((rows t).map (Flow.ofWords limit (Flow.hardWord limit)))

/-! ### Alignment -/

def alignLeft (limit : Nat) (t : Text) : Text :=
  let t := (t.reverse.dropWhile (· = byte ' ')).reverse
  t ++ spaces (limit - width t)

def alignRight (limit : Nat) (t : Text) : Text :=
  let t := t.dropWhile (· = byte ' ')
  spaces (limit - width t) ++ t

/-! ### Control characters in a cell -/

/-- A line with each carriage return moving back to its start: what follows
    overwrites what was there. `kept` is the line and `before` how much of it
    has been overwritten. -/
def overwriting : (before : List Glyph) → (kept : List Glyph) → List Glyph → List Glyph
  | before, kept, [] => before.reverse ++ kept
  | before, kept, g :: gs =>
    if g = .scalar '\r' then overwriting [] (before.reverse ++ kept) gs
    else overwriting (g :: before) (kept.drop 1) gs

/-- Blanks for tabs, plain line breaks, and carriage returns carried out. -/
def settled (t : Text) : Text :=
  let t := replaceAfter "\r\n" "\n" 0 (replaceAfter "\t" "    " 0 t)
  intercalate "\n" ((rows t).map fun l =>
    if l.contains (byte '\r') then ofGlyphs (overwriting [] [] (glyphs l)) else l)

end Gauntlet.Report
