import DocGate.Numeric.Decimal

/-!
# RFC 3339 timestamps

Whether a text is a timestamp the way RFC 3339 writes them: a day of the
calendar, the mark `T`, a time of the day with any number of decimals, and the
offset from Greenwich, which is `Z` or hours and minutes with a sign.

The calendar counts.  February has a 29th day in leap years only.  The 60th
second is left to leap seconds, which nothing here keeps track of.
-/

namespace DocGate

namespace Calendar

/-- Whether a year has a leap day. -/
def isLeap (year : Nat) : Bool :=
  year % 4 = 0 && (year % 100 ≠ 0 || year % 400 = 0)

/-- The number of days in a month. -/
def daysInMonth (year month : Nat) : Nat :=
  match month with
  | 2 => if isLeap year then 29 else 28
  | 4 | 6 | 9 | 11 => 30
  | _ => 31

/-- Whether a year has the given day. -/
def IsDay (year month day : Nat) : Prop :=
  (1 ≤ month ∧ month ≤ 12) ∧ 1 ≤ day ∧ day ≤ daysInMonth year month

instance (year month day : Nat) : Decidable (IsDay year month day) :=
  inferInstanceAs (Decidable (_ ∧ _))

end Calendar

namespace Text

/-- The number of exactly `width` digits at the front of a text, and the rest. -/
def takeNumber? (width : Nat) (cs : List Char) : Option (Nat × List Char) :=
  let ds := cs.take width
  if ds.length = width ∧ ds.all Char.isDigit then some (natOfDigits ds, cs.drop width) else none

/-- What follows a mark at the front of a text. -/
def dropMark? (mark : Char) : List Char → Option (List Char)
  | [] => none
  | c :: rest => if c = mark then some rest else none

/-- What follows a day at the front of a text. -/
def dropDay? (cs : List Char) : Option (List Char) := do
  let (year, cs) ← takeNumber? 4 cs
  let cs ← dropMark? '-' cs
  let (month, cs) ← takeNumber? 2 cs
  let cs ← dropMark? '-' cs
  let (day, cs) ← takeNumber? 2 cs
  if Calendar.IsDay year month day then some cs else none

/-- What follows a time without decimals at the front of a text. -/
def dropTime? (cs : List Char) : Option (List Char) := do
  let (hour, cs) ← takeNumber? 2 cs
  let cs ← dropMark? ':' cs
  let (minute, cs) ← takeNumber? 2 cs
  let cs ← dropMark? ':' cs
  let (second, cs) ← takeNumber? 2 cs
  if hour ≤ 23 ∧ minute ≤ 59 ∧ second ≤ 60 then some cs else none

/-- What follows the decimals of a second, if there are any. -/
def dropDecimals? : List Char → Option (List Char)
  | '.' :: cs =>
    match takeDigits cs with
    | ([], _) => none
    | (_, rest) => some rest
  | cs => some cs

/-- Whether a text is the offset from Greenwich. -/
def isOffset : List Char → Bool
  | ['Z'] => true
  | sign :: cs =>
    (sign = '+' || sign = '-') &&
      match (do
        let (hours, cs) ← takeNumber? 2 cs
        let cs ← dropMark? ':' cs
        let (minutes, cs) ← takeNumber? 2 cs
        some (hours, minutes, cs)) with
      | some (hours, minutes, []) => hours ≤ 23 && minutes ≤ 59
      | _ => false
  | [] => false

/-- Whether a text is a timestamp. -/
def isTimestamp (cs : List Char) : Bool :=
  ((dropDay? cs).bind (dropMark? 'T') |>.bind dropTime? |>.bind dropDecimals?).any isOffset

example : isTimestamp "2024-02-29T23:59:60.25+05:30".toList = true := by decide +kernel
example : isTimestamp "2023-02-29T00:00:00Z".toList = false := by decide +kernel
example : isTimestamp "2024-02-29 00:00:00Z".toList = false := by decide +kernel

end Text

end DocGate
