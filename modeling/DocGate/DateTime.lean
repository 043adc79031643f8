import DocGate.Numeric.Decimal

/-!
# Dates

A date is a count of milliseconds since the start of 1970, in Greenwich, in a
calendar that applies today's leap year rule to all years.  `DateTime.text`
writes it the RFC 3339 way with three decimals of a second.

Years outside 0 to 9999 carry their sign.  Dates before the year -262143 or
after the year 262142 are written as the first or the last instant of that
span.
-/

namespace DocGate

/-- Milliseconds since the start of 1970. -/
structure DateTime where
  millis : Int64
  deriving DecidableEq, Repr

/-- A day of the calendar. -/
structure CivilDay where
  year : Int
  month : Nat
  day : Nat
  deriving DecidableEq, Repr

namespace CivilDay

/-- The day with the given distance from the first of January 1970.

Counted from a first of March in a year divisible by 400, the leap day is the
last day of its year, its four years, its century or its 400 years, so each
division by a mean length needs a correction for that last day only. -/
def ofDayNumber (dayNumber : Int) : CivilDay :=
  let sinceMarch := dayNumber + 719468
  let cycle := sinceMarch / 146097
  let dayOfCycle := (sinceMarch % 146097).toNat
  let yearOfCycle :=
    (dayOfCycle - dayOfCycle / 1460 + dayOfCycle / 36524 - dayOfCycle / 146096) / 365
  let dayOfYear := dayOfCycle - (365 * yearOfCycle + yearOfCycle / 4 - yearOfCycle / 100)
  let monthFromMarch := (5 * dayOfYear + 2) / 153
  let month := if monthFromMarch < 10 then monthFromMarch + 3 else monthFromMarch - 9
  { year := cycle * 400 + yearOfCycle + (if month ≤ 2 then 1 else 0)
    month
    day := dayOfYear - (153 * monthFromMarch + 2) / 5 + 1 }

example : ofDayNumber 0 = ⟨1970, 1, 1⟩ := by decide
example : ofDayNumber 19782 = ⟨2024, 2, 29⟩ := by decide
example : ofDayNumber (-719528) = ⟨0, 1, 1⟩ := by decide
example : ofDayNumber (-719529) = ⟨-1, 12, 31⟩ := by decide

end CivilDay

namespace Text

/-- The digits of `n` with zeros in front up to the given width. -/
def paddedDigits (width n : Nat) : List Char :=
  List.replicate (width - (digits n).length) '0' ++ digits n

/-- A year: four digits at least, with its sign if it is outside 0 to 9999. -/
def yearChars (year : Int) : List Char :=
  let magnitude := paddedDigits 4 year.natAbs
  if year < 0 then '-' :: magnitude
  else if 9999 < year then '+' :: magnitude
  else magnitude

end Text

namespace DateTime

/-- The start of the year -262143. -/
def firstMillis : Int := -8334601228800000

/-- The last millisecond of the year 262142. -/
def lastMillis : Int := 8210266876799999

/-- The count of milliseconds that is written: the date's own, or the nearest
that the calendar holds. -/
def shownMillis (t : DateTime) : Int :=
  max firstMillis (min lastMillis t.millis.toInt)

/-- The text of a count of milliseconds since the start of 1970. -/
def charsOfMillis (millis : Int) : List Char :=
  let day := CivilDay.ofDayNumber (millis / 86400000)
  let time := (millis % 86400000).toNat
  Text.yearChars day.year ++ '-' :: Text.paddedDigits 2 day.month ++
    '-' :: Text.paddedDigits 2 day.day ++ 'T' :: Text.paddedDigits 2 (time / 3600000) ++
    ':' :: Text.paddedDigits 2 (time / 60000 % 60) ++
    ':' :: Text.paddedDigits 2 (time / 1000 % 60) ++
    '.' :: Text.paddedDigits 3 (time % 1000) ++ ['Z']

/-- The text of a date, such as `2020-09-13T12:26:40.000Z`. -/
def text (t : DateTime) : String :=
  String.ofList (charsOfMillis t.shownMillis)

/-- Dates in the order of time. -/
def order (a b : DateTime) : Ordering :=
  compare a.millis.toInt b.millis.toInt

theorem order_eq_eq_iff {a b : DateTime} : a.order b = .eq ↔ a = b := by
  rw [order, Std.LawfulEqCmp.compare_eq_iff_eq, Int64.toInt_inj]
  exact ⟨fun h => congrArg DateTime.mk h, fun h => congrArg DateTime.millis h⟩

example : charsOfMillis 1600000000001 = "2020-09-13T12:26:40.001Z".toList := by decide +kernel
example : charsOfMillis (-62167219200001) = "-0001-12-31T23:59:59.999Z".toList := by decide +kernel
example : charsOfMillis 253402300800000 = "+10000-01-01T00:00:00.000Z".toList := by decide +kernel
example : charsOfMillis firstMillis = "-262143-01-01T00:00:00.000Z".toList := by decide +kernel
example : charsOfMillis lastMillis = "+262142-12-31T23:59:59.999Z".toList := by decide +kernel

end DateTime

end DocGate
