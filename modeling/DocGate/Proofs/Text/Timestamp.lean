import Mathlib.Data.Nat.Init
import DocGate.DateTime
import DocGate.Text.Timestamp

/-!
# The texts of dates are timestamps

`DateTime.isTimestamp_text` says that the text of a date in the years 0 to 9999
is a timestamp in the sense of RFC 3339.

* Numbers.  A number padded to a width is read back (`takeNumber?_paddedDigits`).
* The calendar.  A cycle of 400 years starts in March.  The days before a year of
  the cycle are `daysBefore`, and the quotient in `CivilDay.ofDayNumber` is the
  year whose days surround a day (`yearOfCycle_eq`).  So a day of the year exists
  in that year, the leap day included (`CivilDay.isDay_ofDayNumber`).
-/

namespace DocGate

namespace Text

/-! ## Numbers of a fixed width -/

theorem length_paddedDigits {width n : Nat} (hwidth : 0 < width) (h : n < 10 ^ width) :
    (paddedDigits width n).length = width := by
  have hle : (digits n).length ≤ width := (Nat.length_toDigits_le_iff (by decide) hwidth).2 h
  rw [paddedDigits, List.length_append, List.length_replicate]
  omega

theorem isDigit_of_mem_paddedDigits {width n : Nat} :
    ∀ c ∈ paddedDigits width n, c.isDigit = true := by
  intro c hc
  rw [paddedDigits, List.mem_append, List.mem_replicate] at hc
  rcases hc with ⟨-, rfl⟩ | hc
  · decide
  · exact Nat.isDigit_of_mem_toDigits (by decide) (by decide) hc

theorem natOfDigits_paddedDigits (width n : Nat) : natOfDigits (paddedDigits width n) = n := by
  rw [natOfDigits, paddedDigits, Nat.ofDigitChars_append, Nat.ofDigitChars_replicate_zero,
    Nat.mul_zero]
  exact natOfDigits_digits n

/-- A number padded to a width is read back from the front of a text. -/
theorem takeNumber?_paddedDigits {width n : Nat} (hwidth : 0 < width) (h : n < 10 ^ width)
    (rest : List Char) : takeNumber? width (paddedDigits width n ++ rest) = some (n, rest) := by
  have hlength := length_paddedDigits hwidth h
  have htake : (paddedDigits width n ++ rest).take width = paddedDigits width n :=
    List.take_left' hlength
  have hdrop : (paddedDigits width n ++ rest).drop width = rest := List.drop_left' hlength
  have hdigits : (paddedDigits width n).all Char.isDigit = true :=
    List.all_eq_true.2 isDigit_of_mem_paddedDigits
  simp only [takeNumber?, htake, hdrop, hlength, hdigits, natOfDigits_paddedDigits, and_self, if_true]

/-- A year from 0 to 9999 has four digits. -/
theorem yearChars_eq {year : Int} (h : 0 ≤ year ∧ year ≤ 9999) :
    yearChars year = paddedDigits 4 year.toNat := by
  have hnat : year.natAbs = year.toNat := by omega
  rw [yearChars, if_neg (by omega), if_neg (by omega), hnat]

theorem dropMark?_cons (mark : Char) (rest : List Char) : dropMark? mark (mark :: rest) = some rest :=
  if_pos rfl

end Text

/-! ## The calendar -/

namespace CivilDay

/-- The number of days before a year of the cycle, counted from its March. -/
def daysBefore (year : Nat) : Nat :=
  365 * year + year / 4 - year / 100 + year / 400

/-- The day of the cycle with the leap days before it left out.  The last day of
the cycle is one of them. -/
def withoutLeapDays (day : Nat) : Nat :=
  day - day / 1460 + day / 36524 - day / 146096

theorem withoutLeapDays_le_succ {day : Nat} (h : day < 146096) :
    withoutLeapDays day ≤ withoutLeapDays (day + 1) := by
  rw [withoutLeapDays, withoutLeapDays]
  omega

theorem withoutLeapDays_mono {first last : Nat} (hle : first ≤ last) (h : last ≤ 146096) :
    withoutLeapDays first ≤ withoutLeapDays last := by
  induction last, hle using Nat.le_induction with
  | base => exact Nat.le_refl _
  | succ day hle ih => exact Nat.le_trans (ih (by omega)) (withoutLeapDays_le_succ (by omega))

/-- Every day of the cycle is in one of its years. -/
theorem exists_daysBefore {day : Nat} :
    ∀ years, day < daysBefore years →
      ∃ year < years, daysBefore year ≤ day ∧ day < daysBefore (year + 1)
  | 0, h => absurd h (Nat.not_lt_zero day)
  | years + 1, h => by
    by_cases hyear : daysBefore years ≤ day
    · exact ⟨years, Nat.lt_succ_self years, hyear, h⟩
    · obtain ⟨year, hlt, hsurround⟩ := exists_daysBefore years (Nat.lt_of_not_le hyear)
      exact ⟨year, Nat.lt_succ_of_lt hlt, hsurround⟩

/-- The quotient is right for the first and the last day of every year. -/
theorem year_of_bounds : ∀ year < 400,
    withoutLeapDays (daysBefore year) / 365 = year ∧
      withoutLeapDays (daysBefore (year + 1) - 1) / 365 = year := by
  decide +kernel

/-- The quotient is the year whose days surround a day. -/
theorem yearOfCycle_eq {day : Nat} (h : day < 146097) :
    withoutLeapDays day / 365 < 400 ∧ daysBefore (withoutLeapDays day / 365) ≤ day ∧
      day < daysBefore (withoutLeapDays day / 365 + 1) := by
  obtain ⟨year, hyear, hfirst, hlast⟩ := exists_daysBefore 400 h
  obtain ⟨hlow, hhigh⟩ := year_of_bounds year hyear
  -- The quotient never falls, and it is the year on the first and on the last day.
  have hlow' := Nat.div_le_div_right (c := 365)
    (withoutLeapDays_mono hfirst (Nat.le_of_lt_succ h))
  have hend : daysBefore (year + 1) - 1 ≤ 146096 := by
    rw [daysBefore]
    omega
  have hhigh' := Nat.div_le_div_right (c := 365)
    (withoutLeapDays_mono (Nat.le_sub_one_of_lt hlast) hend)
  obtain rfl : withoutLeapDays day / 365 = year := by omega
  exact ⟨hyear, hfirst, hlast⟩

/-- A year of the cycle ends in a February, which has a leap day if the next year
of the calendar is a leap year. -/
theorem daysBefore_succ : ∀ year < 400,
    daysBefore (year + 1) = daysBefore year + (if Calendar.isLeap (year + 1) then 366 else 365) := by
  decide +kernel

/-- The month of a day of the year, counted from March. -/
def monthFromMarch (dayOfYear : Nat) : Nat :=
  (5 * dayOfYear + 2) / 153

/-- The month of a day of the year. -/
def monthOfYear (dayOfYear : Nat) : Nat :=
  if monthFromMarch dayOfYear < 10 then monthFromMarch dayOfYear + 3
  else monthFromMarch dayOfYear - 9

/-- The day of the month for a day of the year. -/
def dayOfMonth (dayOfYear : Nat) : Nat :=
  dayOfYear - (153 * monthFromMarch dayOfYear + 2) / 5 + 1

/-- Months and days of a year.  Only the last day of a leap year is the 29th of
February. -/
theorem month_and_day : ∀ day < 366,
    (1 ≤ monthOfYear day ∧ monthOfYear day ≤ 12) ∧ 1 ≤ dayOfMonth day ∧
      dayOfMonth day ≤ Calendar.daysInMonth (if day = 365 then 4 else 1) (monthOfYear day) ∧
      (day = 365 → monthOfYear day = 2) := by
  decide +kernel

end CivilDay

theorem Calendar.isLeap_toNat {cycle : Int} {year : Nat} (h : 0 ≤ cycle * 400 + year) :
    isLeap (cycle * 400 + year).toNat = isLeap year := by
  have hfour : (cycle * 400 + year).toNat % 4 = year % 4 := by omega
  have hcentury : (cycle * 400 + year).toNat % 100 = year % 100 := by omega
  have hcycle : (cycle * 400 + year).toNat % 400 = year % 400 := by omega
  rw [isLeap, isLeap, hfour, hcentury, hcycle]

/-- The number of days of a month in a leap year is the greatest. -/
theorem Calendar.daysInMonth_le {first second : Nat} (h : isLeap first = true → isLeap second = true)
    (month : Nat) : daysInMonth first month ≤ daysInMonth second month := by
  unfold daysInMonth
  split
  · cases hfirst : isLeap first with
    | true => simp [h hfirst]
    | false => cases isLeap second <;> decide
  all_goals exact Nat.le_refl _

theorem Calendar.daysInMonth_le_thirtyOne (year month : Nat) : daysInMonth year month ≤ 31 := by
  unfold daysInMonth
  split
  · split <;> decide
  all_goals decide

namespace CivilDay

/-- A day of a year of the cycle.  There are 366 in leap years only. -/
theorem day_lt {year day : Nat} (hyear : year < 400)
    (h : daysBefore year + day < daysBefore (year + 1)) :
    day < 366 ∧ (day = 365 → Calendar.isLeap (year + 1) = true) := by
  rw [daysBefore_succ year hyear] at h
  split at h
  · rename_i hleap
    exact ⟨by omega, fun _ => hleap⟩
  · exact ⟨by omega, fun hlast => by omega⟩

/-- The parts of a day number: the cycle, the year of the cycle and the day of that
year, and what they say about the day of the calendar. -/
theorem ofDayNumber_eq (dayNumber : Int) :
    ∃ (cycle : Int) (year day : Nat), year < 400 ∧
      daysBefore year + day < daysBefore (year + 1) ∧
      dayNumber + 719468 = 146097 * cycle + (daysBefore year + day : Nat) ∧
      ofDayNumber dayNumber =
        ⟨cycle * 400 + year + (if monthOfYear day ≤ 2 then 1 else 0), monthOfYear day,
          dayOfMonth day⟩ := by
  let day := ((dayNumber + 719468) % 146097).toNat
  have hday : day < 146097 := by omega
  obtain ⟨hyear, hfirst, hlast⟩ := yearOfCycle_eq hday
  have hbefore : daysBefore (withoutLeapDays day / 365) = 365 * (withoutLeapDays day / 365) +
      withoutLeapDays day / 365 / 4 - withoutLeapDays day / 365 / 100 := by
    rw [daysBefore, Nat.div_eq_of_lt hyear, Nat.add_zero]
  refine ⟨(dayNumber + 719468) / 146097, withoutLeapDays day / 365,
    day - daysBefore (withoutLeapDays day / 365), hyear, ?_, ?_, ?_⟩
  · rwa [Nat.add_sub_cancel' hfirst]
  · rw [Nat.add_sub_cancel' hfirst]
    omega
  · rw [hbefore]
    rfl

/-- A day in a year after the year -1 is a day of the calendar. -/
theorem isDay_ofDayNumber {dayNumber : Int} (h : 0 ≤ (ofDayNumber dayNumber).year) :
    Calendar.IsDay (ofDayNumber dayNumber).year.toNat (ofDayNumber dayNumber).month
      (ofDayNumber dayNumber).day := by
  obtain ⟨cycle, year, day, hyear, hinside, -, heq⟩ := ofDayNumber_eq dayNumber
  obtain ⟨hday, hleap⟩ := day_lt hyear hinside
  rw [heq] at h ⊢
  obtain ⟨hmonth, hone, hlength, hfebruary⟩ := month_and_day day hday
  refine ⟨hmonth, hone, Nat.le_trans hlength (Calendar.daysInMonth_le ?_ _)⟩
  intro hfour
  -- Only the last day of a leap year needs the longer February.
  have hlast : day = 365 := Decidable.byContradiction fun hne => by
    rw [if_neg hne] at hfour
    cases hfour
  have hnext : cycle * 400 + (year : Int) + 1 = cycle * 400 + ((year + 1 : Nat) : Int) := by
    push_cast
    rw [Int.add_assoc]
  simp only [hfebruary hlast, Nat.le_refl, if_true, hnext] at h ⊢
  rw [Calendar.isLeap_toNat h]
  exact hleap hlast

end CivilDay

/-! ## Texts -/

namespace Text

theorem dropDay?_padded {year month day : Nat} (hyear : year ≤ 9999)
    (h : Calendar.IsDay year month day) (rest : List Char) :
    dropDay? (paddedDigits 4 year ++ '-' :: (paddedDigits 2 month ++
      '-' :: (paddedDigits 2 day ++ rest))) = some rest := by
  have hmonth : month ≤ 12 := h.1.2
  have hday : day ≤ 31 := Nat.le_trans h.2.2 (Calendar.daysInMonth_le_thirtyOne year month)
  simp (disch := omega) only [dropDay?, takeNumber?_paddedDigits, dropMark?_cons,
    Option.bind_eq_bind, Option.bind_some, if_pos h]

theorem dropTime?_padded {hour minute second : Nat}
    (h : hour ≤ 23 ∧ minute ≤ 59 ∧ second ≤ 60) (rest : List Char) :
    dropTime? (paddedDigits 2 hour ++ ':' :: (paddedDigits 2 minute ++
      ':' :: (paddedDigits 2 second ++ rest))) = some rest := by
  simp (disch := omega) only [dropTime?, takeNumber?_paddedDigits, dropMark?_cons,
    Option.bind_eq_bind, Option.bind_some, if_pos h]

theorem dropDecimals?_padded {width decimals : Nat} (hwidth : 0 < width) (h : decimals < 10 ^ width) :
    dropDecimals? ('.' :: (paddedDigits width decimals ++ ['Z'])) = some ['Z'] := by
  have hdigits : ∀ c ∈ paddedDigits width decimals, c.isDigit = true := isDigit_of_mem_paddedDigits
  have hend : Char.isDigit 'Z' = false := by decide
  have htake : takeDigits (paddedDigits width decimals ++ ['Z']) =
      (paddedDigits width decimals, ['Z']) := by
    rw [takeDigits, List.takeWhile_append_of_pos hdigits, List.dropWhile_append_of_pos hdigits]
    simp [hend]
  have hlength := length_paddedDigits hwidth h
  rw [dropDecimals?, htake]
  cases hpadded : paddedDigits width decimals with
  | nil =>
    rw [hpadded] at hlength
    exact absurd hlength (Nat.ne_of_lt hwidth)
  | cons digit rest => rfl

end Text

namespace DateTime

/-- The year of a date. -/
def year (t : DateTime) : Int :=
  (CivilDay.ofDayNumber (t.millis.toInt / 86400000)).year

/-- Dates in the years 0 to 9999 are in the calendar that is written. -/
theorem shownMillis_of_year {t : DateTime} (h : 0 ≤ t.year ∧ t.year ≤ 9999) :
    t.shownMillis = t.millis.toInt := by
  obtain ⟨cycle, year, day, hyear, hday, hcount, heq⟩ :=
    CivilDay.ofDayNumber_eq (t.millis.toInt / 86400000)
  rw [DateTime.year, heq] at h
  simp only at h
  have hbounds : -1 ≤ cycle ∧ cycle ≤ 24 := by
    split at h <;> omega
  have hcycle : CivilDay.daysBefore year + day < 146097 := by
    have hyears : CivilDay.daysBefore (year + 1) ≤ 146097 := by
      rw [CivilDay.daysBefore]
      omega
    omega
  rw [shownMillis, firstMillis, lastMillis]
  omega

/-- The text of a date in the years 0 to 9999 is a timestamp. -/
theorem isTimestamp_text {t : DateTime} (h : 0 ≤ t.year ∧ t.year ≤ 9999) :
    Text.isTimestamp t.text.toList = true := by
  have hyear : 0 ≤ (CivilDay.ofDayNumber (t.millis.toInt / 86400000)).year ∧
      (CivilDay.ofDayNumber (t.millis.toInt / 86400000)).year ≤ 9999 := h
  have hday := CivilDay.isDay_ofDayNumber hyear.1
  have htime : (t.millis.toInt % 86400000).toNat < 86400000 := by omega
  rw [text, String.toList_ofList, shownMillis_of_year h, charsOfMillis]
  simp only [List.append_assoc, List.cons_append]
  generalize CivilDay.ofDayNumber (t.millis.toInt / 86400000) = day at hyear hday ⊢
  rw [Text.yearChars_eq hyear, Text.isTimestamp, Text.dropDay?_padded (Int.toNat_le.2 hyear.2) hday,
    Option.bind_some, Text.dropMark?_cons, Option.bind_some, Text.dropTime?_padded (by omega),
    Option.bind_some, Text.dropDecimals?_padded (by decide) (by omega)]
  rfl

end DateTime

end DocGate
