import Gauntlet.Numeral

/-! # Points in time

  An instant is a number of seconds and nanoseconds since 1970-01-01 UTC. Dates
  follow the Gregorian calendar in both directions. The text of an instant is
  `2006-01-02T15:04:05.5+01:00`: the fraction without trailing zeros, `Z` for
  UTC.
-/

namespace Gauntlet

/-- Seconds and nanoseconds since the start of 1970 in UTC. -/
structure Instant where
  seconds : Int
  nanos : Nat
  deriving DecidableEq, Repr, Inhabited

namespace Instant

/-- Strictly earlier. -/
def before (a b : Instant) : Bool :=
  a.seconds < b.seconds || (a.seconds == b.seconds && a.nanos < b.nanos)

/-- The instant a number of nanoseconds after the start of 1970. -/
def ofNanos (n : Int) : Instant := ⟨n.fdiv 1000000000, (n.fmod 1000000000).toNat⟩

/-- The number of nanoseconds since the start of 1970. -/
def toNanos (i : Instant) : Int := i.seconds * 1000000000 + i.nanos

/-- The instant that a 64-bit count of nanoseconds can hold, modulo 2^64. -/
def wrapped (i : Instant) : Instant := ofNanos (Int64.ofInt i.toNanos).toInt

/-- The start of year 1 in UTC. -/
def yearOne : Instant := ⟨-62135596800, 0⟩

/-! ### The calendar -/

/-- The number of days from 1970-01-01 to a date; the month counts from 1. -/
def daysOfDate (year month day : Int) : Int :=
  let y := if month ≤ 2 then year - 1 else year
  let era := y.fdiv 400
  let yoe := y - era * 400
  let mp := (month + 9).fmod 12
  let doy := (153 * mp + 2).fdiv 5 + day - 1
  let doe := yoe * 365 + yoe.fdiv 4 - yoe.fdiv 100 + doy
  era * 146097 + doe - 719468

/-- The instant of a date and time in UTC; fields out of range carry over. -/
def ofDate (year month day hour minute second : Int) : Instant :=
  let months := year * 12 + (month - 1)
  let days := daysOfDate (months.fdiv 12) (months.fmod 12 + 1) 1 + (day - 1)
  ⟨((days * 24 + hour) * 60 + minute) * 60 + second, 0⟩

/-- A calendar date. -/
structure Date where
  year : Int
  month : Nat
  day : Nat
  deriving DecidableEq, Repr

/-- The date a number of days after 1970-01-01. -/
def dateOfDays (days : Int) : Date :=
  let z := days + 719468
  let era := z.fdiv 146097
  let doe := z - era * 146097
  let yoe := (doe - doe.fdiv 1460 + doe.fdiv 36524 - doe.fdiv 146096).fdiv 365
  let doy := doe - (365 * yoe + yoe.fdiv 4 - yoe.fdiv 100)
  let mp := (5 * doy + 2).fdiv 153
  let day := doy - (153 * mp + 2).fdiv 5 + 1
  let month := if mp < 10 then mp + 3 else mp - 9
  let year := yoe + era * 400 + (if month ≤ 2 then 1 else 0)
  ⟨year, month.toNat, day.toNat⟩

end Instant

/-- An instant with the offset, in seconds east of UTC, of the zone it is shown in. -/
structure ZonedInstant where
  instant : Instant
  offset : Int
  deriving DecidableEq, Repr, Inhabited

namespace ZonedInstant

/-- The seconds from the first moment of the calendar, the first of March of the year
    -292277022400, to the start of 1970. -/
def calendarSpan : Int := 9223372028741760000

/-- The clock reading in its zone, as seconds since the start of 1970; the calendar counts
    2^64 seconds from its first moment and then begins again. -/
def localSeconds (z : ZonedInstant) : Int :=
  (z.instant.seconds + z.offset + calendarSpan) % 0x10000000000000000 - calendarSpan

def date (z : ZonedInstant) : Instant.Date := Instant.dateOfDays (z.localSeconds.fdiv 86400)

/-- The offset in whole minutes, cut toward zero. -/
def zoneMinutes (z : ZonedInstant) : Int := z.offset.tdiv 60

/-- A year with at least four digits. -/
def yearText (y : Int) : Text :=
  (if y < 0 then "-" else "") ++ Numeral.padded 4 y.natAbs

/-- The offset as `Z` or `+hh:mm`. -/
def zoneText (z : ZonedInstant) : Text :=
  if z.offset = 0 then "Z"
  else (if z.zoneMinutes < 0 then "-" else "+") ++ Numeral.padded 2 (z.zoneMinutes.natAbs / 60) ++ ":" ++
    Numeral.padded 2 (z.zoneMinutes.natAbs % 60)

/-- The fraction of a second with its point, without trailing zeros. -/
def fractionText (nanos : Nat) : Text :=
  if nanos = 0 then []
  else 46 :: ((Numeral.padded 9 nanos).reverse.dropWhile (· = 48)).reverse

def text (z : ZonedInstant) : Text :=
  let d := z.date
  let s := (z.localSeconds.fmod 86400).toNat
  yearText d.year ++ "-" ++ Numeral.padded 2 d.month ++ "-" ++ Numeral.padded 2 d.day ++ "T" ++
    Numeral.padded 2 (s / 3600) ++ ":" ++ Numeral.padded 2 (s / 60 % 60) ++ ":" ++
    Numeral.padded 2 (s % 60) ++ fractionText z.instant.nanos ++ z.zoneText

end ZonedInstant

end Gauntlet
