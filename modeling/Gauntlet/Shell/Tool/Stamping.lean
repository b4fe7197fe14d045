import Gauntlet.Shell.Tool

/-! # Setting times

  Files get the present time as the time of their last change, or another one: that of a
  file, or one that is given in digits. Missing files are made.
-/

namespace Gauntlet.Shell.Tools

open Text

/-- The time of a date and a time of day, if both make sense. -/
def instantOf? (year : Int) (month day hour minute second : Nat) : Option Instant :=
  let next := Instant.ofDate year (month + 1) 1 0 0 0
  let i := Instant.ofDate year month day hour minute second
  if 1 ≤ month && month ≤ 12 && 1 ≤ day && hour < 24 && minute < 60 && second ≤ 60 &&
      (Instant.ofDate year month day 0 0 0).before next then some i
  else none

/-- A time of the form `[[CC]YY]MMDDhhmm[.ss]`, in the present year if none is given. -/
def digitsTime? (now : Instant) (t : Text) : Option Instant :=
  let (front, second) : Text × Option Text := match cut? (byte '.') t with
    | some (a, b) => (a, some b)
    | none => (t, none)
  let seconds := second.getD "00"
  if !front.all isDigit || !seconds.all isDigit || seconds.length ≠ 2 then none
  else
    let pair (k : Nat) : Nat := Numeral.value ((front.drop k).take 2)
    let at' (year : Int) (k : Nat) : Option Instant :=
      instantOf? year (pair k) (pair (k + 2)) (pair (k + 4)) (pair (k + 6)) (Numeral.value seconds)
    match front.length with
    | 8 => at' (Instant.dateOfDays (now.seconds.fdiv 86400)).year 0
    | 10 => at' (if pair 0 < 69 then 2000 + pair 0 else 1900 + pair 0) 2
    | 12 => at' (pair 0 * 100 + pair 2) 4
    | _ => none

/-- A time of the form `@seconds` or `YYYY-MM-DD`, the latter with `hh:mm` or `hh:mm:ss` after
    it, or nothing at all for the start of the day. -/
def writtenTime? (t : Text) : Option Instant :=
  let number? (t : Text) : Option Nat :=
    if t.isEmpty || !t.all isDigit then none else some (Numeral.value t)
  match after? "@" t with
  | some rest =>
    match after? "-" rest with
    | some ds => (number? ds).map fun n => ⟨-(n : Int), 0⟩
    | none => (number? rest).map fun n => ⟨n, 0⟩
  | none =>
    let date := t.takeWhile fun b => b ≠ 32 && b ≠ byte 'T'
    let time := (t.drop (date.length + 1)).takeWhile fun b => b ≠ byte 'Z'
    match (splitOn (byte '-') date).mapM number?, (splitOn (byte ':') time).mapM number? with
    | some [y, m, d], none => if time.isEmpty then instantOf? y m d 0 0 0 else none
    | some [y, m, d], some [h, n] => instantOf? y m d h n 0
    | some [y, m, d], some [h, n, s] => instantOf? y m d h n s
    | _, _ => none

def stamp (o : Options) (t : Instant) (p : Progress) (f : Text) : Progress :=
  let d := p.disk
  match d.stat f with
  | .ok (l, n) => { p with disk := d.put l (n.withModified t) }
  | .error e =>
    let unset := p.complaining ("setting times of " ++ inQuotes f ++ ": " ++ reason e.errno)
    if o.has 'c' then (if e.errno = .missing then p else unset)
    else match d.openForWriting f 0o666 with
      | .ok (l, d) =>
        { p with disk := match d.node? l with
            | some n => d.put l (n.withModified t)
            | none => d }
      | .error e =>
        if e.errno = .isDirectory then unset
        else p.complaining ("cannot touch " ++ inQuotes f ++ ": " ++ reason e.errno)

def touch (d : Disk) (args : List Text) : ToolResult :=
  let known : Known :=
    { letters := ['a', 'c', 'f', 'm'], valued := ['d', 'r', 't']
      names := [("no-create", 'c'), ("date", 'd'), ("reference", 'r')] }
  opting d known args fun o =>
    let refused (message : Text) : ToolResult :=
      { disk := d, status := 1, said := [.complaint message] }
    let chosen (t : Option Instant) (given : Text) : Except Text Instant :=
      match t with
      | some t => .ok t
      | none => .error ("invalid date format " ++ quoted given)
    let time : Except Text Instant :=
      match o.value? 'r', o.value? 't', o.value? 'd' with
      | some f, _, _ =>
        match d.stat f with
        | .ok (_, n) => .ok n.modified
        | .error e => .error ("failed to get attributes of " ++ inQuotes f ++ ": " ++ reason e.errno)
      | none, some t, _ => chosen (digitsTime? d.now t) t
      | none, none, some t => chosen (writtenTime? t) t
      | none, none, none => .ok d.now
    match time with
    | .error m => refused m
    | .ok t =>
      if o.operands.isEmpty then misused d "missing file operand"
      else (o.operands.foldl (stamp o t) { disk := d }).result

end Gauntlet.Shell.Tools
