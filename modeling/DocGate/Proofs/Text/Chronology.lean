import DocGate.Cast.Coerce
import DocGate.Proofs.Json.NumberLiteral
import DocGate.Proofs.Text.Timestamp

/-!
# The texts of dates and the order of time

The text of a date tells it from all others, and among dates of the years 0 to 9999 its
bytes show the order of time (`Primitive.dates_cast_in_order`).

* The calendar.  A later day has a later year, or a later month of the same year, or a
  later day of the same month (`CivilDay.before_of_lt`).  `CivilDay.rank` puts year, month
  and day into one number, which grows with the count of days (`CivilDay.rank_lt`).
* Fields.  A padded number is read back from the front of a text
  (`Text.paddedDigits_append_inj`), and so is a year of any size
  (`Text.takeExponent?_yearChars`).  Numbers padded to one width are in the order of the
  numbers (`Text.paddedDigits_append_lt`).
* Texts.  The fields of a text determine the count of milliseconds
  (`DateTime.charsOfMillis_injective`), and from the first on where two texts differ they
  are in its order (`DateTime.charsOfMillis_lt`).
* Bytes.  All characters of a date take one byte each, so its bytes are in the order of its
  characters (`Text.bytes_lt`).
-/

namespace DocGate

/-! ## The calendar -/

namespace CivilDay

/-- The place of a day of the year among the others, if all months had 31 days. -/
def rankInYear (day : Nat) : Nat :=
  31 * monthFromMarch day + dayOfMonth day

theorem rankInYear_lt_succ : ∀ day < 365, rankInYear day < rankInYear (day + 1) := by
  decide +kernel

theorem rankInYear_bounds : ∀ day < 366, 1 ≤ rankInYear day ∧ rankInYear day ≤ 372 := by
  decide +kernel

theorem rankInYear_lt {first last : Nat} (h : first < last) (hlast : last < 366) :
    rankInYear first < rankInYear last := by
  induction last, h using Nat.le_induction with
  | base => exact rankInYear_lt_succ first (by omega)
  | succ day _ ih => exact Nat.lt_trans (ih (by omega)) (rankInYear_lt_succ day (by omega))

theorem daysBefore_mono {first last : Nat} (h : first ≤ last) :
    daysBefore first ≤ daysBefore last := by
  induction last, h using Nat.le_induction with
  | base => exact Nat.le_refl _
  | succ year _ ih =>
    refine Nat.le_trans ih ?_
    rw [daysBefore, daysBefore]
    omega

/-- The place of a day among all days, if all months had 31 days. -/
def rank (day : CivilDay) : Int :=
  372 * day.year + 31 * day.month + day.day

/-- January and February belong to the year after the one that has started in March. -/
theorem rank_ofParts (year : Int) {day : Nat} (hday : day < 366) :
    rank ⟨year + (if monthOfYear day ≤ 2 then 1 else 0), monthOfYear day, dayOfMonth day⟩ =
      372 * year + 93 + rankInYear day := by
  have hmonth : monthFromMarch day < 12 := by
    rw [monthFromMarch]
    omega
  rw [rank, rankInYear]
  simp only [monthOfYear]
  split
  · rw [if_neg (by omega)]
    omega
  · rw [if_pos (by omega)]
    omega

/-- The rank grows with the count of days. -/
theorem rank_lt {first last : Int} (h : first < last) :
    (ofDayNumber first).rank < (ofDayNumber last).rank := by
  obtain ⟨cycle, year, day, hyear, hinside, hcount, heq⟩ := ofDayNumber_eq first
  obtain ⟨cycle', year', day', hyear', hinside', hcount', heq'⟩ := ofDayNumber_eq last
  have hday := (day_lt hyear hinside).1
  have hday' := (day_lt hyear' hinside').1
  have hbounds := rankInYear_bounds day hday
  have hbounds' := rankInYear_bounds day' hday'
  have hend : daysBefore (year + 1) ≤ daysBefore 400 := daysBefore_mono hyear
  have hend' : daysBefore (year' + 1) ≤ daysBefore 400 := daysBefore_mono hyear'
  have hcycle : daysBefore 400 = 146097 := rfl
  rw [heq, heq', rank_ofParts _ hday, rank_ofParts _ hday']
  -- The later day is in a later year, counted from March, or later in the same year.
  have hlater : cycle * 400 + year < cycle' * 400 + year' ∨
      cycle * 400 + (year : Int) = cycle' * 400 + year' ∧ day < day' := by
    rcases Int.lt_trichotomy cycle cycle' with hlt | rfl | hgt
    · exact .inl (by omega)
    · rcases Nat.lt_trichotomy year year' with hlt | rfl | hgt
      · exact .inl (by omega)
      · exact .inr ⟨rfl, by omega⟩
      · have hyears : daysBefore (year' + 1) ≤ daysBefore year := daysBefore_mono hgt
        omega
    · omega
  rcases hlater with hyears | ⟨hsame, hdays⟩
  · omega
  · have := rankInYear_lt hdays hday'
    omega

/-- Months have numbers from 1 to 12, days from 1 to 31. -/
theorem ofDayNumber_bounds (dayNumber : Int) :
    (1 ≤ (ofDayNumber dayNumber).month ∧ (ofDayNumber dayNumber).month ≤ 12) ∧
      1 ≤ (ofDayNumber dayNumber).day ∧ (ofDayNumber dayNumber).day ≤ 31 := by
  obtain ⟨cycle, year, day, hyear, hinside, -, heq⟩ := ofDayNumber_eq dayNumber
  obtain ⟨hmonth, hone, hlength, -⟩ := month_and_day day (day_lt hyear hinside).1
  rw [heq]
  exact ⟨hmonth, hone, Nat.le_trans hlength (Calendar.daysInMonth_le_thirtyOne _ _)⟩

theorem eq_of_fields {day other : CivilDay} (hyear : day.year = other.year)
    (hmonth : day.month = other.month) (hday : day.day = other.day) : day = other := by
  cases day
  cases other
  simp_all

/-- The order of days, by year, month and day of the month. -/
def Before (day later : CivilDay) : Prop :=
  day.year < later.year ∨ day.year = later.year ∧
    (day.month < later.month ∨ day.month = later.month ∧ day.day < later.day)

/-- A greater count of days is a later day. -/
theorem before_of_lt {first last : Int} (h : first < last) :
    (ofDayNumber first).Before (ofDayNumber last) := by
  obtain ⟨⟨hmonth, hmonth'⟩, hday, hday'⟩ := ofDayNumber_bounds first
  obtain ⟨⟨hlater, hlater'⟩, hlast, hlast'⟩ := ofDayNumber_bounds last
  have hrank := rank_lt h
  rw [rank, rank] at hrank
  rw [Before]
  omega

/-- Different counts of days are different days. -/
theorem ofDayNumber_injective {first second : Int}
    (h : ofDayNumber first = ofDayNumber second) : first = second := by
  rcases Int.lt_trichotomy first second with hlt | heq | hgt
  · exact absurd (congrArg rank h) (Int.ne_of_lt (rank_lt hlt))
  · exact heq
  · exact absurd (congrArg rank h.symm) (Int.ne_of_lt (rank_lt hgt))

end CivilDay

/-! ## Fields -/

namespace Text

theorem digit_le_nine {c : Char} (h : c.isDigit = true) : c.toNat - '0'.toNat ≤ 9 :=
  Nat.sub_le_of_le_add (Char.isDigit_iff_toNat.1 h).2

theorem natOfDigits_lt {ds : List Char} (h : ∀ c ∈ ds, c.isDigit = true) :
    natOfDigits ds < 10 ^ ds.length := by
  induction ds with
  | nil => decide
  | cons c rest ih =>
    obtain ⟨hc, hrest⟩ := List.forall_mem_cons.1 h
    have hlt := ih hrest
    rw [natOfDigits_cons, List.length_cons]
    calc (c.toNat - '0'.toNat) * 10 ^ rest.length + natOfDigits rest
        < (c.toNat - '0'.toNat) * 10 ^ rest.length + 10 ^ rest.length := by omega
      _ = (c.toNat - '0'.toNat + 1) * 10 ^ rest.length := by rw [Nat.succ_mul]
      _ ≤ 10 * 10 ^ rest.length :=
          Nat.mul_le_mul_right _ (Nat.succ_le_succ (digit_le_nine hc))
      _ = 10 ^ (rest.length + 1) := by rw [Nat.pow_succ, Nat.mul_comm]

/-- Digits of one length are in the order of the numbers that they stand for, whatever
follows them. -/
theorem append_lt_of_natOfDigits_lt {ds es : List Char} (rest more : List Char)
    (hds : ∀ c ∈ ds, c.isDigit = true) (hes : ∀ c ∈ es, c.isDigit = true)
    (hlength : ds.length = es.length) (h : natOfDigits ds < natOfDigits es) :
    ds ++ rest < es ++ more := by
  induction ds generalizing es with
  | nil =>
    cases es with
    | nil => exact absurd h (Nat.lt_irrefl _)
    | cons e es => cases hlength
  | cons d ds ih =>
    cases es with
    | nil => cases hlength
    | cons e es =>
      obtain ⟨hd, hds⟩ := List.forall_mem_cons.1 hds
      obtain ⟨he, hes⟩ := List.forall_mem_cons.1 hes
      have hlengths : ds.length = es.length := Nat.succ.inj hlength
      have hsmall := natOfDigits_lt hds
      have hsmall' := natOfDigits_lt hes
      rw [natOfDigits_cons, natOfDigits_cons, hlengths] at h
      rw [hlengths] at hsmall
      rw [List.cons_append, List.cons_append, List.cons_lt_cons_iff]
      rcases Nat.lt_trichotomy d.toNat e.toNat with hlt | heq | hgt
      · exact .inl hlt
      · refine .inr ⟨Char.toNat_inj.1 heq, ih hds hes hlengths ?_⟩
        rw [heq] at h
        omega
      · have hlow := (Char.isDigit_iff_toNat.1 he).1
        have hplace : (e.toNat - '0'.toNat + 1) * 10 ^ es.length ≤
            (d.toNat - '0'.toNat) * 10 ^ es.length := Nat.mul_le_mul_right _ (by omega)
        rw [Nat.succ_mul] at hplace
        omega

/-- Padded numbers are in the order of the numbers, and then of what follows them. -/
theorem paddedDigits_append_lt {width n m : Nat} {rest more : List Char} (hwidth : 0 < width)
    (hn : n < 10 ^ width) (hm : m < 10 ^ width) (h : n < m ∨ n = m ∧ rest < more) :
    paddedDigits width n ++ rest < paddedDigits width m ++ more := by
  rcases h with hlt | ⟨rfl, hrest⟩
  · refine append_lt_of_natOfDigits_lt rest more isDigit_of_mem_paddedDigits
      isDigit_of_mem_paddedDigits ?_ ?_
    · rw [length_paddedDigits hwidth hn, length_paddedDigits hwidth hm]
    · rwa [natOfDigits_paddedDigits, natOfDigits_paddedDigits]
  · exact List.append_left_lt hrest

/-- The same with a mark between a number and what follows it. -/
theorem paddedDigits_mark_lt {width n m : Nat} {mark : Char} {rest more : List Char}
    (hwidth : 0 < width) (hn : n < 10 ^ width) (hm : m < 10 ^ width)
    (h : n < m ∨ n = m ∧ rest < more) :
    paddedDigits width n ++ mark :: rest < paddedDigits width m ++ mark :: more :=
  paddedDigits_append_lt hwidth hn hm <| h.imp_right <| And.imp_right fun hrest =>
    List.cons_lt_cons_iff.2 (.inr ⟨rfl, hrest⟩)

/-- A padded number is read back from the front of a text. -/
theorem paddedDigits_append_inj {width n m : Nat} {rest more : List Char} (hwidth : 0 < width)
    (hn : n < 10 ^ width) (hm : m < 10 ^ width)
    (h : paddedDigits width n ++ rest = paddedDigits width m ++ more) : n = m ∧ rest = more := by
  have hread := congrArg (takeNumber? width) h
  rw [takeNumber?_paddedDigits hwidth hn, takeNumber?_paddedDigits hwidth hm] at hread
  exact Prod.mk.inj (Option.some.inj hread)

/-- A year with its sign is read back as an exponent is. -/
theorem takeExponent?_yearChars (year : Int) {rest : List Char}
    (hrest : ∀ c, rest.head? = some c → c.isDigit = false) :
    takeExponent? (yearChars year ++ rest) = some (year, rest) := by
  have hdigits : ∀ c ∈ paddedDigits 4 year.natAbs, c.isDigit = true :=
    isDigit_of_mem_paddedDigits
  have htake := takeDigits_append hdigits hrest
  have hvalue := natOfDigits_paddedDigits 4 year.natAbs
  obtain ⟨c, more, hcons⟩ : ∃ c more, paddedDigits 4 year.natAbs = c :: more := by
    obtain ⟨c, more, hfirst, -⟩ := exists_digits_eq_cons year.natAbs
    refine List.exists_cons_of_ne_nil ?_
    rw [paddedDigits, hfirst]
    simp
  have hsign := ne_sign_of_isDigit (hdigits c (hcons ▸ List.mem_cons_self))
  rw [hcons] at htake hvalue
  rw [List.cons_append] at htake
  rw [yearChars]
  simp only [hcons]
  split
  · have hyear : -(year.natAbs : Int) = year := by omega
    simp only [List.cons_append, takeExponent?, htake, hvalue, if_true, hyear]
  · have hyear : (year.natAbs : Int) = year := by omega
    split
    · simp only [List.cons_append, takeExponent?, htake, hvalue, Bool.false_eq_true, if_false,
        hyear]
    · have hread : takeExponent? (c :: (more ++ rest)) =
          some ((natOfDigits (c :: more) : Int), rest) := by
        simp [takeExponent?, htake, hsign]
      rw [List.cons_append, hread, hvalue, hyear]

/-! ## Bytes -/

/-- Texts whose characters take one byte each. -/
def OneByte (cs : List Char) : Prop :=
  ∀ c ∈ cs, c.toNat < 128

theorem oneByte_append {cs ds : List Char} : OneByte (cs ++ ds) ↔ OneByte cs ∧ OneByte ds :=
  List.forall_mem_append

theorem oneByte_cons {c : Char} {cs : List Char} :
    OneByte (c :: cs) ↔ c.toNat < 128 ∧ OneByte cs :=
  List.forall_mem_cons

theorem oneByte_nil : OneByte [] :=
  fun _ h => absurd h List.not_mem_nil

theorem oneByte_paddedDigits (width n : Nat) : OneByte (paddedDigits width n) := by
  intro c hc
  have hlast := (Char.isDigit_iff_toNat.1 (isDigit_of_mem_paddedDigits c hc)).2
  exact Nat.lt_of_le_of_lt hlast (by decide)

theorem oneByte_yearChars (year : Int) : OneByte (yearChars year) := by
  have hmagnitude := oneByte_paddedDigits 4 year.natAbs
  rw [yearChars]
  split
  · exact oneByte_cons.2 ⟨by decide, hmagnitude⟩
  · split
    · exact oneByte_cons.2 ⟨by decide, hmagnitude⟩
    · exact hmagnitude

/-- Characters of one byte are encoded by themselves. -/
theorem toUTF8_ofList {cs : List Char} (h : OneByte cs) :
    (String.ofList cs).toUTF8 = (cs.map Char.toUInt8).toByteArray := by
  rw [String.toUTF8_eq_toByteArray, String.toByteArray_ofList]
  induction cs with
  | nil => rfl
  | cons c rest ih =>
    obtain ⟨hc, hrest⟩ := oneByte_cons.1 h
    have hsize : c.utf8Size = 1 := by
      rw [Char.utf8Size_eq_one_iff, UInt32.le_iff_toNat_le]
      exact Nat.le_of_lt_succ hc
    rw [List.utf8Encode_cons, List.utf8Encode_singleton, String.utf8EncodeChar_eq_singleton hsize,
      ih hrest, ← List.toByteArray_append]
    rfl

/-- The bytes of a text, in their order. -/
def bytes (s : String) : List UInt8 :=
  s.toUTF8.data.toList

/-- Texts of one-byte characters are in the order of their bytes. -/
theorem bytes_lt {cs ds : List Char} (hcs : OneByte cs) (hds : OneByte ds) (h : cs < ds) :
    bytes (String.ofList cs) < bytes (String.ofList ds) := by
  rw [bytes, bytes, toUTF8_ofList hcs, toUTF8_ofList hds, List.toList_data_toByteArray,
    List.toList_data_toByteArray]
  induction cs generalizing ds with
  | nil =>
    cases ds with
    | nil => exact absurd h (List.lt_irrefl _)
    | cons d ds => exact List.nil_lt_cons _ _
  | cons c cs ih =>
    cases ds with
    | nil => exact absurd h (List.not_lt_nil _)
    | cons d ds =>
      obtain ⟨hc, htail⟩ := oneByte_cons.1 hcs
      obtain ⟨hd, htail'⟩ := oneByte_cons.1 hds
      rw [List.map_cons, List.map_cons, List.cons_lt_cons_iff]
      rcases List.cons_lt_cons_iff.1 h with hlt | ⟨rfl, hrest⟩
      · refine .inl (UInt8.lt_iff_toNat_lt.2 ?_)
        change c.toNat % 256 < d.toNat % 256
        have hlt : c.toNat < d.toNat := hlt
        omega
      · exact .inr ⟨rfl, ih htail htail' hrest⟩

/-! ## The time of a day -/

/-- The text of a time of the day, with the mark behind it. -/
def clockChars (time : Nat) : List Char :=
  paddedDigits 2 (time / 3600000) ++ ':' :: (paddedDigits 2 (time / 60000 % 60) ++
    ':' :: (paddedDigits 2 (time / 1000 % 60) ++ '.' :: (paddedDigits 3 (time % 1000) ++ ['Z'])))

theorem clockChars_lt {time later : Nat} (h : time < later) (hday : later < 86400000) :
    clockChars time < clockChars later := by
  -- The first of hour, minute, second and millisecond that differs is greater.
  have hfields : time / 3600000 < later / 3600000 ∨ time / 3600000 = later / 3600000 ∧
      (time / 60000 % 60 < later / 60000 % 60 ∨ time / 60000 % 60 = later / 60000 % 60 ∧
        (time / 1000 % 60 < later / 1000 % 60 ∨ time / 1000 % 60 = later / 1000 % 60 ∧
          time % 1000 < later % 1000)) := by
    omega
  refine paddedDigits_mark_lt (by decide) (by omega) (by omega)
    (hfields.imp_right <| And.imp_right fun hminutes => ?_)
  refine paddedDigits_mark_lt (by decide) (by omega) (by omega)
    (hminutes.imp_right <| And.imp_right fun hseconds => ?_)
  refine paddedDigits_mark_lt (by decide) (by omega) (by omega)
    (hseconds.imp_right <| And.imp_right fun hmillis => ?_)
  exact paddedDigits_append_lt (by decide) (by omega) (by omega) (.inl hmillis)

theorem clockChars_injective {time other : Nat} (htime : time < 86400000)
    (hother : other < 86400000) (h : clockChars time = clockChars other) : time = other := by
  rcases Nat.lt_trichotomy time other with hlt | heq | hgt
  · exact absurd (h ▸ clockChars_lt hlt hother) (List.lt_irrefl _)
  · exact heq
  · exact absurd (h ▸ clockChars_lt hgt htime) (List.lt_irrefl _)

end Text

/-! ## Texts of dates -/

namespace DateTime

/-- The text of a count of milliseconds, field by field from the front. -/
theorem charsOfMillis_eq (millis : Int) :
    charsOfMillis millis = Text.yearChars (CivilDay.ofDayNumber (millis / 86400000)).year ++
      '-' :: (Text.paddedDigits 2 (CivilDay.ofDayNumber (millis / 86400000)).month ++
      '-' :: (Text.paddedDigits 2 (CivilDay.ofDayNumber (millis / 86400000)).day ++
      'T' :: Text.clockChars (millis % 86400000).toNat)) := by
  simp only [charsOfMillis, Text.clockChars, List.append_assoc, List.cons_append]

/-- Different counts of milliseconds have different texts, in all years. -/
theorem charsOfMillis_injective {first second : Int}
    (h : charsOfMillis first = charsOfMillis second) : first = second := by
  obtain ⟨⟨-, hmonth⟩, -, hday⟩ := CivilDay.ofDayNumber_bounds (first / 86400000)
  obtain ⟨⟨-, hmonth'⟩, -, hday'⟩ := CivilDay.ofDayNumber_bounds (second / 86400000)
  rw [charsOfMillis_eq, charsOfMillis_eq] at h
  have hdash : ∀ (rest : List Char) (c : Char),
      ('-' :: rest).head? = some c → c.isDigit = false := by
    intro rest c hc
    rw [← Option.some.inj hc]
    decide
  have hread := congrArg Text.takeExponent? h
  rw [Text.takeExponent?_yearChars _ (hdash _), Text.takeExponent?_yearChars _ (hdash _)] at hread
  obtain ⟨hyears, hrest⟩ := Prod.mk.inj (Option.some.inj hread)
  obtain ⟨hmonths, hrest⟩ := Text.paddedDigits_append_inj (by decide) (by omega) (by omega)
    (List.cons.inj hrest).2
  obtain ⟨hdays, hrest⟩ := Text.paddedDigits_append_inj (by decide) (by omega) (by omega)
    (List.cons.inj hrest).2
  have htimes := Text.clockChars_injective (by omega) (by omega) (List.cons.inj hrest).2
  have hsame : first / 86400000 = second / 86400000 :=
    CivilDay.ofDayNumber_injective (CivilDay.eq_of_fields hyears hmonths hdays)
  omega

/-- The text of an earlier day comes before the text of a later one, and texts of one day
are in the order of what follows the day. -/
theorem dayChars_lt {day later : CivilDay} {rest more : List Char}
    (hday : (0 ≤ day.year ∧ day.year ≤ 9999) ∧ day.month ≤ 12 ∧ day.day ≤ 31)
    (hlater : (0 ≤ later.year ∧ later.year ≤ 9999) ∧ later.month ≤ 12 ∧ later.day ≤ 31)
    (h : day.Before later ∨ day = later ∧ rest < more) :
    Text.yearChars day.year ++ '-' :: (Text.paddedDigits 2 day.month ++
        '-' :: (Text.paddedDigits 2 day.day ++ 'T' :: rest)) <
      Text.yearChars later.year ++ '-' :: (Text.paddedDigits 2 later.month ++
        '-' :: (Text.paddedDigits 2 later.day ++ 'T' :: more)) := by
  -- The first of year, month, day and the rest that differs is greater.
  have hfields : day.year.toNat < later.year.toNat ∨ day.year.toNat = later.year.toNat ∧
      (day.month < later.month ∨ day.month = later.month ∧
        (day.day < later.day ∨ day.day = later.day ∧ rest < more)) := by
    rcases h with (hyear | ⟨hyear, hmonth | ⟨hmonth, hlt⟩⟩) | ⟨rfl, hrest⟩
    · exact .inl (by omega)
    · exact .inr ⟨by rw [hyear], .inl hmonth⟩
    · exact .inr ⟨by rw [hyear], .inr ⟨hmonth, .inl hlt⟩⟩
    · exact .inr ⟨rfl, .inr ⟨rfl, .inr ⟨rfl, hrest⟩⟩⟩
  rw [Text.yearChars_eq hday.1, Text.yearChars_eq hlater.1]
  refine Text.paddedDigits_mark_lt (by decide) (by omega) (by omega)
    (hfields.imp_right <| And.imp_right fun hmonths => ?_)
  refine Text.paddedDigits_mark_lt (by decide) (by omega) (by omega)
    (hmonths.imp_right <| And.imp_right fun hdays => ?_)
  exact Text.paddedDigits_mark_lt (by decide) (by omega) (by omega) hdays

/-- In the years 0 to 9999 the texts are in the order of time. -/
theorem charsOfMillis_lt {first last : Int} (h : first < last)
    (hfirst : 0 ≤ (CivilDay.ofDayNumber (first / 86400000)).year ∧
      (CivilDay.ofDayNumber (first / 86400000)).year ≤ 9999)
    (hlast : 0 ≤ (CivilDay.ofDayNumber (last / 86400000)).year ∧
      (CivilDay.ofDayNumber (last / 86400000)).year ≤ 9999) :
    charsOfMillis first < charsOfMillis last := by
  obtain ⟨⟨-, hmonth⟩, -, hday⟩ := CivilDay.ofDayNumber_bounds (first / 86400000)
  obtain ⟨⟨-, hmonth'⟩, -, hday'⟩ := CivilDay.ofDayNumber_bounds (last / 86400000)
  rw [charsOfMillis_eq, charsOfMillis_eq]
  refine dayChars_lt ⟨hfirst, hmonth, hday⟩ ⟨hlast, hmonth', hday'⟩ ?_
  rcases Int.lt_or_le (first / 86400000) (last / 86400000) with hdays | hdays
  · exact .inl (CivilDay.before_of_lt hdays)
  · have hsame : first / 86400000 = last / 86400000 := by omega
    exact .inr ⟨by rw [hsame], Text.clockChars_lt (by omega) (by omega)⟩

theorem oneByte_charsOfMillis (millis : Int) : Text.OneByte (charsOfMillis millis) := by
  simp only [charsOfMillis, Text.oneByte_append, Text.oneByte_cons, Text.oneByte_nil,
    Text.oneByte_paddedDigits, Text.oneByte_yearChars, true_and, and_true]
  decide

/-- Dates that the calendar holds. -/
def InCalendar (t : DateTime) : Prop :=
  firstMillis ≤ t.millis.toInt ∧ t.millis.toInt ≤ lastMillis

/-- Dates of the calendar are written with their own count of milliseconds. -/
theorem shownMillis_of_inCalendar {t : DateTime} (h : t.InCalendar) :
    t.shownMillis = t.millis.toInt := by
  obtain ⟨hfirst, hlast⟩ := h
  rw [shownMillis]
  omega

/-- The text of a date of the calendar belongs to no other date of it. -/
theorem text_injective {a b : DateTime} (ha : a.InCalendar) (hb : b.InCalendar)
    (h : a.text = b.text) : a = b := by
  rw [text, text, String.ofList_inj, shownMillis_of_inCalendar ha, shownMillis_of_inCalendar hb] at h
  have hmillis := Int64.toInt_inj.1 (charsOfMillis_injective h)
  exact congrArg DateTime.mk hmillis

theorem bytes_text_lt {a b : DateTime} (ha : 0 ≤ a.year ∧ a.year ≤ 9999)
    (hb : 0 ≤ b.year ∧ b.year ≤ 9999) (h : a.millis.toInt < b.millis.toInt) :
    Text.bytes a.text < Text.bytes b.text := by
  rw [text, text, shownMillis_of_year ha, shownMillis_of_year hb]
  exact Text.bytes_lt (oneByte_charsOfMillis _) (oneByte_charsOfMillis _)
    (charsOfMillis_lt h ha hb)

/-- The bytes of texts of the years 0 to 9999 are in the order of time. -/
theorem bytes_text_lt_iff {a b : DateTime} (ha : 0 ≤ a.year ∧ a.year ≤ 9999)
    (hb : 0 ≤ b.year ∧ b.year ≤ 9999) :
    Text.bytes a.text < Text.bytes b.text ↔ a.millis.toInt < b.millis.toInt := by
  constructor
  · intro h
    rcases Int.lt_trichotomy a.millis.toInt b.millis.toInt with hlt | heq | hgt
    · exact hlt
    · have hsame : a.text = b.text := by
        rw [text, text, shownMillis_of_year ha, shownMillis_of_year hb, heq]
      rw [hsame] at h
      exact absurd h (List.lt_irrefl _)
    · exact absurd h (List.lt_asymm (bytes_text_lt hb ha hgt))
  · exact bytes_text_lt ha hb

end DateTime

/-- Casts of dates keep time.  A date is cast to a text.  Dates of the calendar with equal
texts are equal, and for dates of the years 0 to 9999 the bytes of the texts are in the
order of time. -/
theorem Primitive.dates_cast_in_order :
    (∀ a : DateTime, dateTime.coerce (.dateTime a) = .string a.text) ∧
    (∀ a b : DateTime, a.InCalendar → b.InCalendar →
      dateTime.coerce (.dateTime a) = dateTime.coerce (.dateTime b) → a = b) ∧
    ∀ a b : DateTime, 0 ≤ a.year ∧ a.year ≤ 9999 → 0 ≤ b.year ∧ b.year ≤ 9999 →
      (Text.bytes a.text < Text.bytes b.text ↔ a.millis.toInt < b.millis.toInt) := by
  refine ⟨fun a => rfl, fun a b ha hb h => ?_, fun a b ha hb => DateTime.bytes_text_lt_iff ha hb⟩
  exact DateTime.text_injective ha hb (Bson.string.inj h)

/-- The last millisecond before the leap day of the year 0, and the first of that day. -/
theorem Primitive.dates_cast_in_order_leapDay :
    Text.bytes "0000-02-28T23:59:59.999Z" < Text.bytes "0000-02-29T00:00:00.000Z" ∧
      (dateTime.coerce (.dateTime ⟨-62162121600001⟩) ≠
        dateTime.coerce (.dateTime ⟨-62162121600000⟩)) := by
  have hfirst : (DateTime.mk (-62162121600001)).text = "0000-02-28T23:59:59.999Z" := by
    decide +kernel
  have hlast : (DateTime.mk (-62162121600000)).text = "0000-02-29T00:00:00.000Z" := by
    decide +kernel
  refine ⟨?_, fun h => ?_⟩
  · rw [← hfirst, ← hlast]
    exact (dates_cast_in_order.2.2 _ _ (by decide +kernel) (by decide +kernel)).2 (by decide)
  · exact absurd (dates_cast_in_order.2.1 _ _ ⟨by decide, by decide⟩ ⟨by decide, by decide⟩ h)
      (by decide)

end DocGate
