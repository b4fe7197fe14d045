import Gauntlet.Proofs.Digits
import Gauntlet.Proofs.Utf8

/-! # Instants that can be read back

  A date is found by counting years from March on, in eras of 400 years. Counting the other way
  leads back to the same day (`daysOfDate_dateOfDays`), so no two days have the same date. With
  the time of the day and the fraction of the second, the text of an instant tells which one it
  is, as long as the year has four digits and the zone is UTC (`text_inj`).
-/

namespace Gauntlet

namespace Instant

/-! ### Days and dates -/

section Era

variable {day year : Int} (h : 0 ≤ day) (h' : day ≤ 146096)
  (hyear : year = (day - day / 1460 + day / 36524 - day / 146096) / 365)

include h h' hyear

/-- The year of a day in an era is in the century of the day; the last day of an era belongs to
    the last century. -/
theorem century_of_day : year / 100 = day / 36524 - day / 146096 := by
  have hcentury : day / 36524 = 0 ∨ day / 36524 = 1 ∨ day / 36524 = 2 ∨ day / 36524 = 3 ∨
      day / 36524 = 4 := by omega
  rcases hcentury with hcentury | hcentury | hcentury | hcentury | hcentury <;> omega

/-- Every fourth year is a day longer. -/
theorem leap_of_day : day / 1460 - 1 ≤ year / 4 ∧ year / 4 ≤ day / 1460 := by
  omega

/-- The year of a day is one of 400, and the day is one of at most 366 in it. -/
theorem day_in_year :
    (0 ≤ year ∧ year ≤ 399) ∧
    0 ≤ day - (365 * year + year / 4 - year / 100) ∧
      day - (365 * year + year / 4 - year / 100) ≤ 365 := by
  have hcentury := century_of_day h h' hyear
  have hleap := leap_of_day h h' hyear
  omega

end Era

/-- A date by its parts: the era, the year in the era, the month counted from March, and the
    day of the month. -/
structure Parts (days : Int) where
  era : Int
  year : Int
  month : Int
  day : Int
  year_nonneg : 0 ≤ year
  year_le : year ≤ 399
  month_nonneg : 0 ≤ month
  month_le : month ≤ 11
  day_pos : 1 ≤ day
  day_le : day ≤ 31
  days_eq : days + 719468 =
    era * 146097 + (year * 365 + year / 4 - year / 100 + ((153 * month + 2) / 5 + day - 1))

/-- The calendar date; January and February belong to the next year. -/
def Parts.date {days : Int} (p : Parts days) : Date where
  year := p.year + p.era * 400 + (if p.month < 10 then 0 else 1)
  month := (if p.month < 10 then p.month + 3 else p.month - 9).toNat
  day := p.day.toNat

theorem exists_parts (days : Int) : ∃ p : Parts days, dateOfDays days = p.date := by
  unfold dateOfDays
  dsimp only
  simp (disch := omega) only [Int.fdiv_eq_ediv_of_nonneg]
  -- The steps of the calculation, from the era down to the month.
  generalize hera : (days + 719468) / 146097 = era
  generalize hdoe : days + 719468 - era * 146097 = doe
  generalize hyear : (doe - doe / 1460 + doe / 36524 - doe / 146096) / 365 = year
  generalize hdoy : doe - (365 * year + year / 4 - year / 100) = doy
  generalize hmonth : (5 * doy + 2) / 153 = month
  have hrange : 0 ≤ doe ∧ doe ≤ 146096 := by omega
  obtain ⟨⟨hnonneg, hle⟩, hfirst, hlast⟩ := day_in_year hrange.1 hrange.2 hyear.symm
  rw [hdoy] at hfirst hlast
  refine ⟨⟨era, year, month, doy - (153 * month + 2) / 5 + 1, hnonneg, hle, ?_, ?_, ?_, ?_, ?_⟩, ?_⟩
  · omega
  · omega
  · omega
  · omega
  · omega
  · unfold Parts.date
    by_cases hearly : month < 10
    · have hmarch : ¬ month + 3 ≤ 2 := by omega
      simp [hearly, hmarch]
    · have hjanuary : month - 9 ≤ 2 := by omega
      simp [hearly, hjanuary]

/-- Counting back from a date leads to its day. -/
theorem daysOfDate_dateOfDays (days : Int) :
    daysOfDate (dateOfDays days).year (dateOfDays days).month (dateOfDays days).day = days := by
  obtain ⟨⟨era, year, month, day, hnonneg, hle, hmonth, hmonth', hday, hday', hdays⟩, hdate⟩ :=
    exists_parts days
  rw [hdate]
  unfold daysOfDate Parts.date
  dsimp only
  simp (disch := omega) only [Int.fdiv_eq_ediv_of_nonneg, Int.fmod_eq_emod_of_nonneg]
  by_cases hearly : month < 10
  · simp only [hearly, if_true]
    omega
  · simp only [hearly, if_false]
    omega

theorem dateOfDays_inj {days days' : Int} (h : dateOfDays days = dateOfDays days') :
    days = days' := by
  rw [← daysOfDate_dateOfDays days, h, daysOfDate_dateOfDays]

end Instant

namespace ZonedInstant

theorem fractionText_eq (nanos : Nat) : fractionText nanos = Duration.fraction 9 nanos := rfl

/-! ### The text of an instant -/

/-- The instant is given in UTC, and it is in one of the years from 0 to 9999. Its nanoseconds
    are those within a second. -/
structure Civil (z : ZonedInstant) : Prop where
  utc : z.offset = 0
  nanos : z.instant.nanos < 1000000000
  year_nonneg : 0 ≤ (Instant.dateOfDays (z.instant.seconds.fdiv 86400)).year
  year_le : (Instant.dateOfDays (z.instant.seconds.fdiv 86400)).year ≤ 9999

namespace Civil

variable {z z' : ZonedInstant}

/-- The clock in UTC shows the instant itself; the calendar does not begin again in those years. -/
theorem localSeconds_eq (h : Civil z) : z.localSeconds = z.instant.seconds := by
  obtain ⟨⟨era, year, month, day, hnonneg, hle, hmonth, hmonth', hday, hday', hdays⟩, hdate⟩ :=
    Instant.exists_parts (z.instant.seconds.fdiv 86400)
  have hlow := h.year_nonneg
  have hhigh := h.year_le
  have hfdiv : z.instant.seconds.fdiv 86400 = z.instant.seconds / 86400 :=
    Int.fdiv_eq_ediv_of_nonneg _ (by omega)
  rw [hdate] at hlow hhigh
  simp only [Instant.Parts.date] at hlow hhigh
  rw [hfdiv] at hdays
  -- Ten thousand years are a few eras, far from the ends of what the calendar can show.
  have hera : -2 ≤ era ∧ era ≤ 25 := by
    constructor
    · split at hlow <;> omega
    · split at hhigh <;> omega
  have hseconds : -100000000000 ≤ z.instant.seconds ∧ z.instant.seconds ≤ 1000000000000 := by
    omega
  unfold localSeconds calendarSpan
  rw [h.utc, Int.emod_eq_of_lt (by omega) (by omega)]
  omega

theorem date_eq (h : Civil z) : z.date = Instant.dateOfDays (z.instant.seconds.fdiv 86400) := by
  rw [date, h.localSeconds_eq]

/-- The text of the seconds of a day and what follows. -/
def clockText (s : Nat) (rest : Text) : Text :=
  Numeral.padded 2 (s / 3600) ++ (":" ++ (Numeral.padded 2 (s / 60 % 60) ++ (":" ++
    (Numeral.padded 2 (s % 60) ++ rest))))

/-- The text of a date and what follows. -/
def dateText (d : Instant.Date) (rest : Text) : Text :=
  Numeral.padded 4 d.year.natAbs ++ ("-" ++ (Numeral.padded 2 d.month ++ ("-" ++
    (Numeral.padded 2 d.day ++ ("T" ++ rest)))))

theorem clockText_inj {s s' : Nat} {x y : Text} (hx : x.Breaks Text.isDigit)
    (hy : y.Breaks Text.isDigit) (h : clockText s x = clockText s' y) : s = s' ∧ x = y := by
  have hcolon : ∀ t : Text, Text.Breaks Text.isDigit (":" ++ t) :=
    fun t => Text.breaks_cons (b := 58) rfl t
  obtain ⟨hhours, hmore⟩ := Numeral.padded_append_inj (hcolon _) (hcolon _) h
  obtain ⟨hminutes, hmore⟩ :=
    Numeral.padded_append_inj (hcolon _) (hcolon _) (List.append_cancel_left hmore)
  obtain ⟨hseconds, hrest⟩ := Numeral.padded_append_inj hx hy (List.append_cancel_left hmore)
  exact ⟨by omega, hrest⟩

theorem dateText_inj {d d' : Instant.Date} {x y : Text} (hd : 0 ≤ d.year) (hd' : 0 ≤ d'.year)
    (h : dateText d x = dateText d' y) : d = d' ∧ x = y := by
  have hdash : ∀ t : Text, Text.Breaks Text.isDigit ("-" ++ t) :=
    fun t => Text.breaks_cons (b := 45) rfl t
  have hmark : ∀ t : Text, Text.Breaks Text.isDigit ("T" ++ t) :=
    fun t => Text.breaks_cons (b := 84) rfl t
  obtain ⟨hyear, hmore⟩ := Numeral.padded_append_inj (hdash _) (hdash _) h
  obtain ⟨hmonth, hmore⟩ :=
    Numeral.padded_append_inj (hdash _) (hdash _) (List.append_cancel_left hmore)
  obtain ⟨hday, hrest⟩ :=
    Numeral.padded_append_inj (hmark _) (hmark _) (List.append_cancel_left hmore)
  obtain ⟨year, month, day⟩ := d
  obtain ⟨year', month', day'⟩ := d'
  obtain rfl : year = year' := by
    simp only at hyear hd hd'
    omega
  exact ⟨by simp_all, List.append_cancel_left hrest⟩

theorem text_eq (h : Civil z) :
    z.text = dateText (Instant.dateOfDays (z.instant.seconds.fdiv 86400))
      (clockText (z.instant.seconds.fmod 86400).toNat
        (Duration.fraction 9 z.instant.nanos ++ "Z")) := by
  have hyear : ¬ (Instant.dateOfDays (z.instant.seconds.fdiv 86400)).year < 0 := by
    have := h.year_nonneg
    omega
  unfold ZonedInstant.text
  rw [h.date_eq, h.localSeconds_eq]
  simp only [yearText, zoneText, h.utc, hyear, if_true, if_false, fractionText_eq, dateText,
    clockText, List.append_assoc]
  rfl

theorem fraction_breaks (n : Nat) : Text.Breaks Text.isDigit (Duration.fraction 9 n ++ "Z") := by
  rw [Duration.fraction_eq]
  split
  · exact Text.breaks_cons (b := 90) rfl []
  · exact Text.breaks_cons (b := 46) rfl _

theorem isUtf8_text (h : Civil z) : Text.isUtf8 z.text = true := by
  have hpadded : ∀ w n, Text.isUtf8 (Numeral.padded w n) = true := fun w n =>
    Text.isUtf8_of_isDigit fun _ => Numeral.isDigit_of_mem_padded
  have hfraction : Text.isUtf8 (Duration.fraction 9 z.instant.nanos) = true := by
    rw [Duration.fraction_eq]
    split
    · rfl
    · exact Text.isUtf8_append (s := [46]) rfl
        (Text.isUtf8_of_isDigit fun _ => Numeral.isDigit_of_mem_significant)
  have hclock : ∀ s {rest : Text}, rest.isUtf8 = true → (clockText s rest).isUtf8 = true := by
    intro s rest hrest
    exact Text.isUtf8_append (hpadded _ _) (Text.isUtf8_append rfl (Text.isUtf8_append (hpadded _ _)
      (Text.isUtf8_append rfl (Text.isUtf8_append (hpadded _ _) hrest))))
  have hdate : ∀ d {rest : Text}, rest.isUtf8 = true → (dateText d rest).isUtf8 = true := by
    intro d rest hrest
    exact Text.isUtf8_append (hpadded _ _) (Text.isUtf8_append rfl (Text.isUtf8_append (hpadded _ _)
      (Text.isUtf8_append rfl (Text.isUtf8_append (hpadded _ _) (Text.isUtf8_append rfl hrest)))))
  rw [h.text_eq]
  exact hdate _ (hclock _ (Text.isUtf8_append hfraction rfl))

/-- In those years the text of an instant tells which one it is. -/
theorem text_inj (h : Civil z) (h' : Civil z') (heq : z.text = z'.text) : z = z' := by
  rw [h.text_eq, h'.text_eq] at heq
  obtain ⟨hdate, heq⟩ := dateText_inj h.year_nonneg h'.year_nonneg heq
  obtain ⟨hclock, heq⟩ := clockText_inj (fraction_breaks _) (fraction_breaks _) heq
  have hnanos : z.instant.nanos = z'.instant.nanos :=
    Duration.fraction_inj (by omega) h.nanos h'.nanos (List.append_cancel_right heq)
  have hdays := Instant.dateOfDays_inj hdate
  have hseconds : z.instant.seconds = z'.instant.seconds := by
    have hsplit := Int.mul_fdiv_add_fmod z.instant.seconds 86400
    have hsplit' := Int.mul_fdiv_add_fmod z'.instant.seconds 86400
    have hnonneg := Int.fmod_nonneg_of_pos z.instant.seconds (b := 86400) (by omega)
    have hnonneg' := Int.fmod_nonneg_of_pos z'.instant.seconds (b := 86400) (by omega)
    omega
  obtain ⟨⟨seconds, nanos⟩, offset⟩ := z
  obtain ⟨⟨seconds', nanos'⟩, offset'⟩ := z'
  have hoffset : offset = offset' := h.utc.trans h'.utc.symm
  simp only at hnanos hseconds
  rw [hnanos, hseconds, hoffset]

end Civil

end ZonedInstant

end Gauntlet
