import Gauntlet.Decimal.Nearest
import Gauntlet.Decimal.Places
import Gauntlet.Shell.Tool
import Gauntlet.Text.Quoted

/-! # Printing from scripts

  Text that scripts print, either as it is with escapes carried out, or through a
  format. A format is used again until the arguments are used up; arguments that are
  missing count as empty or zero. The command of the shell and the tool of the same name
  differ in what they take for an escape and in how they complain.
-/

namespace Gauntlet.Shell.Printing

open Text

/-- Whose printing it is. -/
inductive Printer where
  | command
  /-- The tool of the same name. -/
  | tool
  deriving DecidableEq, Repr

/-! ### Escapes -/

/-- The value of up to `most` digits of a base and what follows them. -/
def digitsUpTo (base : Nat) : (most : Nat) → (acc : Nat) → Text → Nat × Text
  | 0, acc, t => (acc, t)
  | k + 1, acc, b :: t =>
    let isHex := isDigit b || (97 ≤ b && b ≤ 102) || (65 ≤ b && b ≤ 70)
    if isHex && hexValue b < base then digitsUpTo base k (acc * base + hexValue b) t else (acc, b :: t)
  | _ + 1, acc, [] => (acc, [])

/-- The byte that a letter after a backslash stands for. -/
def escaped? (b : UInt8) : Option UInt8 :=
  match Char.ofNat b.toNat with
  | 'a' => some 7
  | 'b' => some 8
  | 'e' => some 27
  | 'f' => some 12
  | 'n' => some 10
  | 'r' => some 13
  | 't' => some 9
  | 'v' => some 11
  | '\\' => some 92
  | _ => none

/-- What the text after a backslash means. -/
inductive Escape where
  /-- A text, with what follows the escape. -/
  | text (t rest : Text)
  /-- Nothing more is printed. -/
  | stop
  /-- A number is missing. -/
  | incomplete

/-- The meaning of the text after a backslash in a format. -/
def escape (who : Printer) (t : Text) : Escape :=
  match t with
  | [] => .text (single '\\') []
  | b :: rest =>
    match escaped? b with
    | some c => .text [c] rest
    | none =>
      if 48 ≤ b && b ≤ 55 then
        let (v, rest) := digitsUpTo 8 3 0 t
        .text [v.toUInt8] rest
      else if who = .command then .text (single '\\') t
      else if b = byte 'c' then .stop
      else if b = byte '"' then .text [b] rest
      else if b = byte 'x' then
        let (v, after) := digitsUpTo 16 2 0 rest
        if after.length = rest.length then .incomplete else .text [v.toUInt8] after
      else .text [byte '\\', b] rest

/-- The text with its escapes carried out, and whether printing ends there; an octal
    number may have a leading zero besides its digits. -/
def unescaped (who : Printer) : (fuel : Nat) → Text → Text × Bool
  | 0, _ => ([], false)
  | n + 1, t =>
    match t with
    | [] => ([], false)
    | a :: rest =>
      let more (lead t : Text) : Text × Bool :=
        let (u, stop) := unescaped who n t
        (lead ++ u, stop)
      if a ≠ byte '\\' then more [a] rest
      else match rest with
        | b :: tail =>
          if b = byte 'c' then ([], true)
          else if b = byte '0' then
            let (v, rest) := digitsUpTo 8 3 0 tail
            more [v.toUInt8] rest
          else match escape who rest with
            | .text lead rest => more lead rest
            | _ => more [a] rest
        | [] => ([a], false)

/-- Words on a line, as the command of the shell writes them; `-n` leaves out the line
    break. -/
def line (words : List Text) : Text :=
  let (newline, words) := match words with
    | a :: rest => if a = "-n" then (false, rest) else (true, words)
    | [] => (true, [])
  let whole := intercalate " " words
  let (t, stop) := unescaped .command (whole.length + 1) whole
  if newline && !stop then t ++ "\n" else t

/-- The letters of the options of the tool that writes a line, with the words after them. -/
def lineOptions : List Text → List Char × List Text
  | [] => ([], [])
  | a :: rest =>
    let cs := (a.drop 1).map fun b => Char.ofNat b.toNat
    if a.head? = some (byte '-') && !cs.isEmpty && cs.all fun c => c = 'n' || c = 'e' || c = 'E' then
      let (more, words) := lineOptions rest
      (cs ++ more, words)
    else ([], a :: rest)

/-- Words on a line, as the tool writes them: escapes count only if that is asked for. -/
def toolLine (words : List Text) : Text :=
  let (options, words) := lineOptions words
  let whole := intercalate " " words
  let escaping := (options.filter fun c => c = 'e' || c = 'E').getLast? = some 'e'
  let (t, stop) := if escaping then unescaped .tool (whole.length + 1) whole else (whole, false)
  if options.contains 'n' || stop then t else t ++ "\n"

/-! ### Numbers -/

/-- The digits of a base at the start of a text, as a number, and what follows them. -/
def digits (base : Nat) : (acc : Nat) → Text → Nat × Text
  | acc, [] => (acc, [])
  | acc, b :: t =>
    let isHex := isDigit b || (97 ≤ b && b ≤ 102) || (65 ≤ b && b ≤ 70)
    if isHex && hexValue b < base then digits base (acc * base + hexValue b) t else (acc, b :: t)

/-- A blank in front of a number. -/
def isBlank (b : UInt8) : Bool := b = 32 || (9 ≤ b && b ≤ 13)

/-- A number at the start of an argument. -/
structure Taken (α : Type) where
  value : α
  /-- What follows it. -/
  rest : Text := []
  /-- It cannot be told well. -/
  beyond : Bool := false

/-- Without the blanks in front, and the sign. -/
def signOf (t : Text) : Bool × Text :=
  let body := t.dropWhile isBlank
  match body with
  | b :: rest => if b = byte '-' then (true, rest) else if b = byte '+' then (false, rest) else (false, body)
  | [] => (false, [])

/-- The digits of a number whose base its first characters tell, and what follows them;
    nothing if there are none. -/
def baseDigits? (t : Text) : Option (Nat × Text) :=
  let inBase (base : Nat) (t : Text) : Option (Nat × Text) :=
    let (n, rest) := digits base 0 t
    if rest.length = t.length then none else some (n, rest)
  match t with
  | z :: x :: ds =>
    if z ≠ byte '0' then inBase 10 t
    else if x = byte 'x' || x = byte 'X' then (inBase 16 ds).or (some (0, x :: ds))
    else if x = byte 'b' || x = byte 'B' then (inBase 2 ds).or (some (0, x :: ds))
    else inBase 8 t
  | _ => inBase 10 t

/-- The whole number at the start of an argument: with a sign, or taken around a word of 64
    bits. -/
def whole (signed : Bool) (t : Text) : Taken Int :=
  let (negative, body) := signOf t
  match baseDigits? body with
  | none => { value := 0, rest := t }
  | some (n, rest) =>
    let v : Int := if negative then -(n : Int) else n
    if signed then
      { value := max (-0x8000000000000000) (min 0x7fffffffffffffff v), rest
        beyond := v < -0x8000000000000000 || 0x7fffffffffffffff < v }
    else if 0x10000000000000000 ≤ n then { value := 0xffffffffffffffff, rest, beyond := true }
    else { value := v.emod 0x10000000000000000, rest }

/-- The digits of a base with a point among them: all of them as one number, how many stand
    after the point, and what follows; nothing if there are none. -/
def pointedDigits? (base : Nat) (t : Text) : Option (Nat × Nat × Text) :=
  let (n, rest) := digits base 0 t
  let (m, places, after) : Nat × Nat × Text := match rest with
    | b :: more =>
      if b = byte '.' then
        let (m, after) := digits base n more
        (m, more.length - after.length, after)
      else (n, 0, rest)
    | [] => (n, 0, [])
  if t.length - rest.length + places = 0 then none else some (m, places, after)

/-- The exponent after a letter, if there is one, and what follows. -/
def exponent (letter : Char) (t : Text) : Int × Text :=
  match t with
  | b :: rest =>
    if (lower [b]) = single letter then
      let (negative, ds) : Bool × Text := match rest with
        | s :: more =>
          if s = byte '-' then (true, more) else if s = byte '+' then (false, more) else (false, rest)
        | [] => (false, [])
      let (e, after) := digits 10 0 ds
      if after.length = ds.length then (0, t) else (if negative then -(e : Int) else e, after)
    else (0, t)
  | [] => (0, [])

/-- Exponents beyond this give nothing or infinity in every format. -/
def exponentLimit : Int := 20000

/-- The number `m · base^e` in a format. -/
def scaled (f : Decimal.Format) (negative : Bool) (base : Nat) (m : Nat) (e : Int) : Decimal.Nearest :=
  if m = 0 then Decimal.nearest f negative ⟨0, 1⟩
  else if exponentLimit < e then { parts := .infinite negative, beyond := true }
  else if e + ((Nat.log2 m : Nat) : Int) < -exponentLimit then
    { Decimal.nearest f negative ⟨0, 1⟩ with beyond := true }
  else Decimal.nearest f negative
    (if 0 ≤ e then ⟨m * Nat.pow base e.toNat, 1⟩ else ⟨m, Nat.pow base (-e).toNat⟩)

/-- The number with a point at the start of an argument, and whether it has a minus sign. -/
def real (f : Decimal.Format) (t : Text) : Taken (Bool × Decimal.Parts) :=
  let (negative, body) := signOf t
  let small := lower body
  let word (w : Text) (p : Decimal.Parts) : Taken (Bool × Decimal.Parts) :=
    { value := (negative, p), rest := body.drop w.length }
  let decimal : Taken (Bool × Decimal.Parts) := match pointedDigits? 10 body with
    | none => { value := (false, .finite false 0 0 false), rest := t }
    | some (m, places, rest) =>
      let (e, rest) := exponent 'e' rest
      let x := scaled f negative 10 m (e - places)
      { value := (negative, x.parts), rest, beyond := x.beyond }
  if startsWith small "infinity" then word "infinity" (.infinite negative)
  else if startsWith small "inf" then word "inf" (.infinite negative)
  else if startsWith small "nan" then word "nan" .notANumber
  else if startsWith small "0x" then
    match pointedDigits? 16 (body.drop 2) with
    | none => decimal
    | some (m, places, rest) =>
      let (e, rest) := exponent 'p' rest
      let x := scaled f negative 2 m (e - 4 * (places : Int))
      { value := (negative, x.parts), rest, beyond := x.beyond }
  else decimal

/-- An argument that is a quote and a character stands for the value of the character. -/
def quotedByte? (t : Text) : Option (UInt8 × Text) :=
  match t with
  | b :: rest =>
    if b = byte '\'' || b = byte '"' then some (rest.headD 0, rest.drop 1) else none
  | [] => none

/-! ### Layout -/

/-- The part of a format between the percent sign and the letter. -/
structure Layout where
  flags : Text := []
  width : Nat := 0
  precision : Option Nat := none

namespace Layout

def has (l : Layout) (c : Char) : Bool := l.flags.contains (byte c)

def padded (l : Layout) (t : Text) : Text :=
  let gap := spaces (l.width - t.length)
  if l.has '-' then t ++ gap else gap ++ t

def text (l : Layout) (t : Text) : Text :=
  l.padded (match l.precision with
    | some p => t.take p
    | none => t)

/-- Digits with what stands in front of them, filled up with zeros between the two if that
    is asked for. -/
def filled (l : Layout) (front ds : Text) : Text :=
  if l.has '0' && !l.has '-' then front ++ repeated 48 (l.width - front.length - ds.length) ++ ds
  else l.padded (front ++ ds)

/-- The digits of a whole number with what stands in front of them. -/
def number (l : Layout) (front ds : Text) : Text :=
  match l.precision with
  | some p =>
    let ds : Text := if p = 0 && ds = "0" then [] else ds
    l.padded (front ++ repeated 48 (p - ds.length) ++ ds)
  | none => l.filled front ds

/-- What stands in front of a number with a sign. -/
def sign (l : Layout) (negative : Bool) : Text :=
  if negative then "-" else if l.has '+' then "+" else if l.has ' ' then " " else []

def signed (l : Layout) (n : Int) : Text := l.number (l.sign (n < 0)) (Numeral.ofNat n.natAbs)

/-- A number without a sign, in a base. -/
def unsigned (l : Layout) (base : Nat) (front : Text) (n : Int) : Text :=
  let k := n.emod 0x10000000000000000 |>.toNat
  l.number (if l.has '#' && k ≠ 0 then front else []) ((Nat.toDigits base k).map byte)

/-- A number without a sign in base eight, which the flag makes start with a zero. -/
def octal (l : Layout) (n : Int) : Text :=
  let ds := (Nat.toDigits 8 (n.emod 0x10000000000000000).toNat).map byte
  let least := if l.has '#' && ds ≠ "0" then ds.length + 1 else if l.has '#' then 1 else 0
  let l := match l.precision with
    | some p => { l with precision := some (max p least) }
    | none => l
  l.number [] (repeated 48 (least - ds.length) ++ ds)

/-- A number with a point; the digits of base sixteen after the first are `k`. -/
def real (l : Layout) (kind : Char) (k : Nat) (negative : Bool) (x : Decimal.Parts) : Text :=
  let front := l.sign negative
  let shown : Text := match x with
    | .notANumber => l.padded (front ++ "nan")
    | .infinite _ => l.padded (front ++ "inf")
    | .finite _ m q _ =>
      let a := Decimal.Ratio.binary m q
      let places := l.precision.getD 6
      match kind.toLower with
      | 'f' => l.filled front (Decimal.fixed places (l.has '#') a)
      | 'e' => l.filled front (Decimal.scientific places (l.has '#') a)
      | 'g' => l.filled front (Decimal.compact places (l.has '#') a)
      | _ =>
        let t := Decimal.binary k l.precision (l.has '#') m q
        l.filled (front ++ t.take 2) (t.drop 2)
  if kind.isUpper then upper shown else shown

end Layout

/-! ### Formats -/

namespace Printer

/-- The format of numbers with a point. -/
def format : Printer → Decimal.Format
  | command => .double
  | tool => .extended

def hexPlaces : Printer → Nat
  | command => 13
  | tool => 15

/-- What is wrong with an argument that should be a number. -/
def problem? (p : Printer) {α : Type} (t : Text) (n : Taken α) : Option Text :=
  let name := match p with
    | command => t
    | tool => Tools.quoted t
  let range : Option Text := if n.beyond then some (name ++ ": Numerical result out of range") else none
  let rest : Option Text :=
    if n.rest.isEmpty then none
    else if n.rest.length = t.length then
      some (name ++ (if p = command then ": expected numeric value" else ": expected a numeric value"))
    else some (name ++
      (if p = command then ": not completely converted" else ": value not completely converted"))
  if p = command then rest.or range else range.or rest

end Printer

/-- What printing has led to. -/
structure Printed where
  out : Text := []
  problems : List Text := []
  /-- Something was wrong with an argument. -/
  failed : Bool := false
  args : List Text := []
  used : Bool := false
  /-- Printing ends here. -/
  ended : Bool := false
  /-- The format makes no sense. -/
  senseless : Bool := false

namespace Printed

def adding (p : Printed) (t : Text) : Printed := { p with out := p.out ++ t }

/-- With a complaint about the format itself. -/
def refused (p : Printed) (problem : Text) : Printed :=
  { p with problems := p.problems ++ [problem], senseless := true }

/-- With a remark that is no complaint. -/
def warned (p : Printed) (remark : Text) : Printed := { p with problems := p.problems ++ [remark] }

def next (p : Printed) : Text × Printed :=
  match p.args with
  | [] => ([], p)
  | a :: rest => (a, { p with args := rest, used := true })

/-- The next argument as a number, read in some way. -/
def taking {α : Type} (p : Printed) (who : Printer) (ofByte : UInt8 → α) (read : Text → Taken α) :
    α × Printed :=
  let (t, p) := p.next
  let plain : α × Printed :=
    let n := read t
    match who.problem? t n with
    | none => (n.value, p)
    | some problem => (n.value, { p.warned problem with failed := true })
  match quotedByte? t with
  | none => plain
  | some (b, others) =>
    if who = .command then (ofByte b, p)
    else if t.length = 1 then plain
    else if others.isEmpty then (ofByte b, p)
    else (ofByte b,
      p.warned ("warning: " ++ others ++ ": character(s) following character constant have been ignored"))

def number (p : Printed) (who : Printer) (signed : Bool) : Int × Printed :=
  p.taking who (fun b => (b.toNat : Int)) (whole signed)

def real (p : Printed) (who : Printer) : (Bool × Decimal.Parts) × Printed :=
  p.taking who (fun b => (false, (Decimal.nearest who.format false ⟨b.toNat, 1⟩).parts))
    (Printing.real who.format)

end Printed

def measureLimit : Int := 0x7fffffff

/-- A width or precision: digits, or a star that takes an argument. One that is too large
    makes no sense; the command of the shell takes that of an argument around a word of 32
    bits. -/
def measure (who : Printer) (what : Text) (t : Text) (p : Printed) : Int × Text × Printed :=
  let checked (n : Int) (given rest : Text) (p : Printed) : Int × Text × Printed :=
    if n.natAbs ≤ measureLimit then (n, rest, p)
    else (0, rest, p.refused (match who with
      | .command => "xvsnprintf failed"
      | .tool => "invalid " ++ what ++ ": " ++ Tools.quoted given))
  match t with
  | b :: rest =>
    if b = byte '*' then
      let given := p.next.1
      let (n, p) := p.number who true
      checked (if who = .command then (Int32.ofInt n).toInt else n) given rest p
    else
      let (n, rest) := digits 10 0 t
      checked n (t.take (t.length - rest.length)) rest p
  | [] => (0, [], p)

/-- Prints one directive, of which `t` is what follows the percent sign. -/
def directive (who : Printer) (t : Text) (p : Printed) : Printed × Text :=
  let isFlag (b : UInt8) : Bool := ("-+ #0".toList.map byte).contains b
  let flags := t.takeWhile isFlag
  let (width, rest, p) := measure who "field width" (t.drop flags.length) p
  let (precision, rest, p) : Option Int × Text × Printed := match rest with
    | b :: more =>
      if b = byte '.' then
        let (n, rest, p) := measure who "precision" more p
        (some n, rest, p)
      else (none, rest, p)
    | [] => (none, [], p)
  let rest := if who = .tool then rest.dropWhile fun b => ("lLhjtz".toList.map byte).contains b else rest
  let l : Layout :=
    { flags := if width < 0 then byte '-' :: flags else flags
      width := width.natAbs
      precision := precision.bind fun n => if n < 0 then none else some n.toNat }
  let refused (more : Nat) : Printed :=
    let shown : Text := "%" ++ t.take (t.length - rest.length + more)
    p.refused (if who = .command then shown ++ ": invalid directive"
      else shown ++ ": invalid conversion specification")
  if p.senseless then (p, rest)
  else match rest with
  | [] => if who = .command then (p.refused "missing format character", []) else (refused 0, [])
  | k :: rest =>
    let text (f : Text → Text) : Printed :=
      let (a, p) := p.next
      p.adding (f a)
    let number (signed : Bool) (f : Int → Text) : Printed :=
      let (n, p) := p.number who signed
      p.adding (f n)
    let c := Char.ofNat k.toNat
    let marked := l.has '#' || (l.has '0' && (c = 's' || c = 'c')) || (c = 'c' && precision.isSome)
    if who = .tool && marked && ['c', 'd', 'i', 's', 'u'].contains c then (refused 1, rest)
    else match c with
    | 's' => (text l.text, rest)
    | 'c' => (text fun a => l.padded [a.headD 0], rest)
    | 'b' =>
      if who = .tool && t.length ≠ rest.length + 1 then (refused 1, rest)
      else
        let (a, p) := p.next
        let (t, stop) := unescaped who (a.length + 1) a
        ({ p.adding (l.text t) with ended := stop }, rest)
    | 'd' => (number true l.signed, rest)
    | 'i' => (number true l.signed, rest)
    | 'u' => (number false (l.unsigned 10 []), rest)
    | 'o' => (number false l.octal, rest)
    | 'x' => (number false (l.unsigned 16 "0x"), rest)
    | 'X' => (number false fun n => upper (l.unsigned 16 "0x" n), rest)
    | _ =>
      if ("aAeEfFgG".toList).contains c then
        let ((negative, x), p) := p.real who
        (p.adding (l.real c who.hexPlaces negative x), rest)
      else (refused 1, rest)

def pass (who : Printer) : (fuel : Nat) → Text → Printed → Printed
  | 0, _, p => p
  | n + 1, format, p =>
    if p.ended || p.senseless then p
    else match format with
      | [] => p
      | a :: rest =>
        if a = byte '\\' then
          match escape who rest with
          | .stop => { p with ended := true }
          | .incomplete => p.refused "missing hexadecimal number in escape"
          | .text t rest => pass who n rest (p.adding t)
        else if a = byte '%' then
          if rest.head? = some a then pass who n rest.tail (p.adding [a])
          else
            let (p, rest) := directive who rest p
            pass who n rest p
        else pass who n rest (p.adding [a])

def passes (who : Printer) : (fuel : Nat) → Text → Printed → Printed
  | 0, _, p => p
  | n + 1, format, p =>
    let q := pass who (format.length + 1) format { p with used := false }
    if q.used && !q.args.isEmpty && !q.ended && !q.senseless then passes who n format q else q

def through (who : Printer) (format : Text) (args : List Text) : Printed :=
  let p := passes who (args.length + 1) format { args }
  match p.args with
  | [] => p
  | a :: _ =>
    if who = .command || p.ended || p.senseless then p
    else p.warned ("warning: ignoring excess arguments, starting with " ++ Tools.quoted a)

end Gauntlet.Shell.Printing
