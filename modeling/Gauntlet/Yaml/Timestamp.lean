import Gauntlet.Instant
import Gauntlet.Numeral

/-! # Timestamps

  A timestamp is a date, or a date and a time with a zone, or a date and a time without
  one. The year has four digits; the other fields have one or two.

  - `Timestamp.read?` reads a timestamp.
  - `Timestamp.same` and `Timestamp.le` compare two of them: the fraction of the second
    comes first, then the instant, then the zone.
-/

namespace Gauntlet.Yaml

inductive Zone where
  | universal
  /-- The zone of the machine, which keeps universal time. -/
  | here
  /-- Seconds east of universal time. -/
  | shifted (seconds : Int)
  deriving DecidableEq, Repr, Inhabited

/-- The zone that is so many seconds east. -/
def Zone.ofSeconds (s : Int) : Zone := if s = 0 then .here else .shifted s

/-- The zone is one of those that exist once: whole hours from twelve before to fourteen
    after universal time. Any other shift makes a zone of its own. -/
def Zone.isShared : Zone → Bool
  | shifted s => s % 3600 = 0 && -12 * 3600 ≤ s && s ≤ 14 * 3600
  | _ => true

/-- The place of a zone among the zones. -/
def Zone.rank : Zone → Int
  | universal => -0x4000000000000000
  | here => -0x2000000000000000
  | shifted s => s

def Zone.seconds : Zone → Int
  | shifted s => s
  | _ => 0

structure Timestamp where
  year : Nat
  month : Nat
  day : Nat
  hour : Nat := 0
  minute : Nat := 0
  second : Nat := 0
  nanos : Nat := 0
  zone : Zone := .universal
  deriving DecidableEq, Repr, Inhabited

namespace Timestamp

/-! ### Reading -/

/-- A number of one or two digits within bounds, and what follows. -/
def oneOrTwo? (lo hi : Nat) (t : Text) : Option (Nat × Text) :=
  let ds := (t.take 2).takeWhile Text.isDigit
  let n := Numeral.value ds
  if ds = [] ∨ n < lo ∨ hi < n then none else some (n, t.drop ds.length)

/-- A number of exactly two digits up to a bound, and what follows. -/
def two? (hi : Nat) (t : Text) : Option (Nat × Text) :=
  let ds := t.take 2
  let n := Numeral.value ds
  if ds.length < 2 ∨ !ds.all Text.isDigit ∨ hi < n then none else some (n, t.drop 2)

def daysIn (year month : Nat) : Nat :=
  if month = 2 then
    if year % 4 = 0 ∧ (year % 100 ≠ 0 ∨ year % 400 = 0) then 29 else 28
  else if month = 4 ∨ month = 6 ∨ month = 9 ∨ month = 11 then 30
  else 31

/-- A text without one given character in front. -/
def drop? (b : UInt8) (t : Text) : Option Text := Text.after? [b] t

/-- A fraction of a second in nanoseconds, and what follows: a point or comma with digits,
    if present, of which nine count. -/
def fraction (t : Text) : Nat × Text :=
  match t with
  | b :: d :: rest =>
    if (b = 46 ∨ b = 44) ∧ Text.isDigit d then
      let ds := (d :: rest).takeWhile Text.isDigit
      (Numeral.value ((ds ++ List.replicate 9 48).take 9), (d :: rest).drop ds.length)
    else (0, t)
  | _ => (0, t)

/-- A zone that ends a text: `Z`, or a sign with hours and minutes. -/
def zone? (t : Text) : Option Zone :=
  match t with
  | [90] => some .universal
  | s :: rest => do
    if s ≠ 43 ∧ s ≠ 45 then none
    else
      let (hours, r) ← two? 24 rest
      let r ← drop? 58 r
      let (minutes, r) ← two? 60 r
      let shift : Int := (hours * 60 + minutes) * 60
      if r = [] then some (.ofSeconds (if s = 45 then -shift else shift)) else none
  | [] => none

/-- A date in front of a text, and what follows it. -/
def date? (t : Text) : Option (Timestamp × Text) := do
  let year := t.take 4
  if year.length < 4 ∨ !year.all Text.isDigit then none
  else
    let r ← drop? 45 (t.drop 4)
    let (month, r) ← oneOrTwo? 1 12 r
    let r ← drop? 45 r
    let (day, r) ← oneOrTwo? 1 31 r
    if daysIn (Numeral.value year) month < day then none
    else some ({ year := Numeral.value year, month, day }, r)

/-- A time of day in front of a text, added to a date, and what follows its fraction. -/
def time? (date : Timestamp) (t : Text) : Option (Timestamp × Text) := do
  let (hour, r) ← oneOrTwo? 0 23 t
  let r ← drop? 58 r
  let (minute, r) ← oneOrTwo? 0 59 r
  let r ← drop? 58 r
  let (second, r) ← oneOrTwo? 0 59 r
  let (nanos, r) := fraction r
  some ({ date with hour, minute, second, nanos }, r)

/-- Reads a timestamp: a date, or a date and a time in one of three forms; blanks between
    them may be many. -/
def read? (t : Text) : Option Timestamp :=
  if (t.takeWhile Text.isDigit).length ≠ 4 ∨ t[4]? ≠ some 45 then none
  else match date? t with
    | none => none
    | some (date, []) => some date
    | some (date, sep :: rest) =>
      if sep = 84 ∨ sep = 116 then do
        let (moment, r) ← time? date rest
        let zone ← zone? r
        some { moment with zone }
      else if sep = 32 then
        match time? date (rest.dropWhile (· = 32)) with
        | some (moment, []) => some moment
        | _ => none
      else none

/-! ### Comparing -/

/-- The seconds from the start of 1970 in universal time. -/
def seconds (t : Timestamp) : Int :=
  (Instant.ofDate t.year t.month t.day t.hour t.minute t.second).seconds - t.zone.seconds

/-- Two timestamps are the same, their zones included. -/
def same (a b : Timestamp) : Bool :=
  a.nanos = b.nanos && a.seconds = b.seconds && a.zone = b.zone && a.zone.isShared

/-- A timestamp stands before another, or at its place. -/
def le (a b : Timestamp) : Bool :=
  if a.nanos ≠ b.nanos then a.nanos < b.nanos
  else if a.seconds ≠ b.seconds then a.seconds < b.seconds
  else a.zone.rank ≤ b.zone.rank

/-! ### Writing -/

def monthNames : List String :=
  ["January", "February", "March", "April", "May", "June", "July", "August", "September", "October",
   "November", "December"]

def zoneText : Zone → Text
  | .universal => "time.UTC"
  | .here => "time.Local"
  | .shifted _ => "time.Location(\"\")"

/-- A timestamp as it is shown where it cannot be used. -/
def shown (t : Timestamp) : Text :=
  let fields : List Text :=
    [Numeral.ofNat t.year, "time." ++ Text.ofString (monthNames.getD (t.month - 1) ""),
     Numeral.ofNat t.day, Numeral.ofNat t.hour, Numeral.ofNat t.minute, Numeral.ofNat t.second,
     Numeral.ofNat t.nanos, zoneText t.zone]
  "time.Date(" ++ Text.intercalate ", " fields ++ ")"

end Timestamp

end Gauntlet.Yaml
