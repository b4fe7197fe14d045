import Gauntlet.Shell.Printing

/-! # Counting

  Decimal numbers from one to another, in steps. All of them have as many places as the first
  and the step need, and the same width if that is asked for.
-/

namespace Gauntlet.Shell.Tools.Counting

open Text

/-- A decimal number as it is written. -/
structure Amount where
  /-- The number is this many units of its last place. -/
  units : Int
  places : Nat
  /-- How many characters it has. -/
  width : Nat

namespace Amount

/-- In units of a place that is no higher than the last. -/
def scaled (a : Amount) (places : Nat) : Int := a.units * Int.pow 10 (places - a.places)

/-- The number that an argument is. -/
def ofText? (t : Text) : Option Amount :=
  let body := t.dropWhile fun b => Printing.isBlank b || b = byte '+'
  let (negative, ds) : Bool × Text := match body with
    | b :: rest => if b = byte '-' then (true, rest) else (false, body)
    | [] => (false, [])
  match Printing.pointedDigits? 10 ds with
  | none => none
  | some (m, places, rest) =>
    let (e, rest) := Printing.exponent 'e' rest
    if !rest.isEmpty || e.natAbs > 100 then none
    else
      let units : Int := if negative then -(m : Int) else m
      let bare := if body.getLast? = some (byte '.') then body.length - 1
        else if ds.head? = some (byte '.') then body.length + 1 else body.length
      let down := ((places : Int) - e).toNat
      some { units := units * Int.pow 10 (e - places).toNat, places := down, width := bare }

/-- The width if the number has other places. -/
def widthWith (a : Amount) (places : Nat) : Nat :=
  let point := if places = 0 && a.places ≠ 0 then -1 else if places ≠ 0 && a.places = 0 then 1 else (0 : Int)
  ((a.width : Int) + (places : Int) - (a.places : Int) + point).toNat

end Amount

/-- A number of units of a place, filled up with zeros to a width. -/
def shown (places width : Nat) (units : Int) : Text :=
  let ds := Numeral.ofNat units.natAbs
  let ds := repeated 48 (places + 1 - ds.length) ++ ds
  let body := if places = 0 then ds
    else ds.take (ds.length - places) ++ "." ++ ds.drop (ds.length - places)
  let sign : Text := if units < 0 then "-" else []
  sign ++ repeated 48 (width - sign.length - body.length) ++ body

def most : Nat := 1000000

/-- The numbers from the first to the last, in units of the lowest place. -/
def numbers (first step last : Amount) : List Int :=
  let p := max (max first.places step.places) last.places
  let (a, s, z) := (first.scaled p, step.scaled p, last.scaled p)
  let count : Nat := ((z - a).fdiv s + 1).toNat
  (List.range (min most count)).map fun (k : Nat) => a + (k : Int) * s

/-- How a call asks for numbers to be written. -/
structure Style where
  separator : Text := "\n"
  format : Option Text := none
  equal : Bool := false

/-- The numbers from the first to the last, as text. -/
def text (style : Style) (first step last : Amount) : Text :=
  let places := max first.places step.places
  let all := max places last.places
  let width := if style.equal then max (first.widthWith places) (last.widthWith places) else 0
  let one (n : Int) : Text :=
    let plain := shown places width (n.tdiv (Int.pow 10 (all - places)))
    match style.format with
    | some f =>
      (Printing.through .tool (f.flatMap fun b => if b = byte '\\' then [b, b] else [b]) [plain]).out
    | none => plain
  let ts := (numbers first step last).map one
  if ts.isEmpty then [] else intercalate style.separator ts ++ "\n"

/-- Options in front of the numbers; a number may begin with a minus sign. -/
def marked : List Text → List Text
  | [] => []
  | a :: rest =>
    let isNumber := match a with
      | m :: b :: _ => m = byte '-' && (isDigit b || b = byte '.')
      | _ => false
    if isNumber then "--" :: a :: rest
    else if a = "-s" || a = "-f" then
      match rest with
      | v :: rest => a :: v :: marked rest
      | [] => [a]
    else if a.head? = some (byte '-') && a ≠ "--" then a :: marked rest
    else a :: rest

end Gauntlet.Shell.Tools.Counting

namespace Gauntlet.Shell.Tools

open Text

def seq (d : Disk) (args : List Text) : ToolResult :=
  let known : Known :=
    { letters := ['w'], valued := ['s', 'f'], leading := true
      names := [("equal-width", 'w'), ("separator", 's'), ("format", 'f')] }
  opting d known (Counting.marked args) fun o =>
    let style : Counting.Style :=
      { separator := (o.value? 's').getD "\n", format := o.value? 'f', equal := o.has 'w' }
    let counting (first step last : Text) : ToolResult :=
      let wrong (t : Text) : ToolResult := misused d ("invalid floating point argument: " ++ quoted t)
      match Counting.Amount.ofText? first, Counting.Amount.ofText? step, Counting.Amount.ofText? last with
      | none, _, _ => wrong first
      | some _, none, _ => wrong step
      | some _, some s, some z =>
        if s.units = 0 then misused d ("invalid Zero increment value: " ++ quoted step)
        else if o.has 'w' && o.has 'f' then
          misused d "format string may not be specified when printing equal width strings"
        else
          let a := (Counting.Amount.ofText? first).getD z
          { disk := d, said := [.output (Counting.text style a s z)] }
      | some _, some s, none =>
        if s.units = 0 then misused d ("invalid Zero increment value: " ++ quoted step) else wrong last
    match o.operands with
    | [] => misused d "missing operand"
    | [z] => counting "1" "1" z
    | [a, z] => counting a "1" z
    | [a, s, z] => counting a s z
    | _ :: _ :: _ :: extra :: _ => misused d ("extra operand " ++ quoted extra)

end Gauntlet.Shell.Tools
