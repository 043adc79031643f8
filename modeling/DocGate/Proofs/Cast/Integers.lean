import Mathlib.Data.Nat.Digits.Defs
import DocGate.Cast.Coerce
import DocGate.Proofs.Json.NumberLiteral

/-!
# Casts of integers

An integer is cast to its decimal text and from it without loss.

* Texts.  `Text.IntegerText` is the shape of a text that spells an integer: blanks, an
  optional sign, decimal digits, and blanks.  Its value is read off the places of the
  digits.  The scanners find this value (`Text.IntegerText.integerOfChars?_core`,
  `Text.IntegerText.decimalOfChars?_core`), and every integer has such a text
  (`Text.IntegerText.ofInt`).
* Types.  `Bson.Narrowest` is an integer in the narrowest type that holds it.  A text
  that spells an integer is cast to that if there is such a type, and otherwise to the
  nearest double or not at all (`Text.IntegerText.numberOfText?_text`).
-/

namespace DocGate

namespace Text

/-! ## Texts of integers -/

/-- An optional sign. -/
inductive Sign
  | none
  | plus
  | minus

namespace Sign

def chars : Sign → List Char
  | none => []
  | plus => ['+']
  | minus => ['-']

def isMinus : Sign → Bool
  | none => false
  | plus => false
  | minus => true

/-- The magnitude with the sign. -/
def apply (sign : Sign) (magnitude : Nat) : Int :=
  if sign.isMinus then -magnitude else magnitude

end Sign

/-- The natural that decimal digits stand for, each digit by its place from the right. -/
def placeValue (ds : List Char) : Nat :=
  Nat.ofDigits 10 (ds.reverse.map fun c => c.toNat - '0'.toNat)

/-- The parts of a text that spells an integer. -/
structure IntegerText where
  before : List Char
  sign : Sign
  digits : List Char
  after : List Char
  isBlank_before : ∀ c ∈ before, isBlank c = true
  digits_ne_nil : digits ≠ []
  isDigit_digits : ∀ c ∈ digits, c.isDigit = true
  isBlank_after : ∀ c ∈ after, isBlank c = true

namespace IntegerText

/-- The sign and the digits, without the blanks. -/
def core (t : IntegerText) : List Char :=
  t.sign.chars ++ t.digits

def text (t : IntegerText) : String :=
  String.ofList (t.before ++ (t.core ++ t.after))

/-- The integer that is spelled. -/
def value (t : IntegerText) : Int :=
  t.sign.apply (placeValue t.digits)

end IntegerText

/-- Reading digits from the left gives each its place. -/
theorem natOfDigits_eq_placeValue (ds : List Char) : natOfDigits ds = placeValue ds := by
  induction ds with
  | nil => rfl
  | cons c rest ih =>
    rw [natOfDigits_cons, ih, placeValue, placeValue, List.reverse_cons, List.map_append,
      Nat.ofDigits_append, List.length_map, List.length_reverse, List.map_singleton,
      Nat.ofDigits_singleton, Nat.add_comm, Nat.mul_comm]

theorem isBlank_eq_false_of_isDigit {c : Char} (h : c.isDigit = true) : isBlank c = false := by
  obtain ⟨hlow, hhigh⟩ := Char.isDigit_iff_toNat.1 h
  have hzero : '0'.toNat = 48 := rfl
  have hnine : '9'.toNat = 57 := rfl
  simp only [isBlank, Bool.or_eq_false_iff, Bool.and_eq_false_iff, decide_eq_false_iff_not,
    beq_eq_false_iff_ne]
  omega

/-- The blanks at both ends are dropped, and nothing else. -/
theorem trimChars_append {before core after : List Char}
    (hbefore : ∀ c ∈ before, isBlank c = true) (hafter : ∀ c ∈ after, isBlank c = true)
    (hfirst : ∀ c, core.head? = some c → isBlank c = false)
    (hlast : ∀ c, core.getLast? = some c → isBlank c = false) (hne : core ≠ []) :
    trimChars (before ++ (core ++ after)) = core := by
  have hkeep : ∀ cs : List Char, cs ≠ [] → (∀ c, cs.head? = some c → isBlank c = false) →
      ∀ rest, (cs ++ rest).dropWhile isBlank = cs ++ rest := by
    intro cs hcs hhead rest
    obtain ⟨c, more, rfl⟩ := List.exists_cons_of_ne_nil hcs
    exact List.dropWhile_cons_of_neg (by simp [hhead c rfl])
  have hback : ∀ c ∈ after.reverse, isBlank c = true :=
    fun c hc => hafter c (List.mem_reverse.1 hc)
  have hreverse : core.reverse.dropWhile isBlank = core.reverse := by
    simpa using hkeep core.reverse (by simpa using hne) (by simpa using hlast) []
  rw [trimChars, List.dropWhile_append_of_pos hbefore, hkeep core hne hfirst,
    List.reverse_append, List.dropWhile_append_of_pos hback, hreverse, List.reverse_reverse]

namespace IntegerText

variable (t : IntegerText)

theorem exists_digits_eq_cons : ∃ c rest, t.digits = c :: rest ∧ c.isDigit = true := by
  obtain ⟨c, rest, hcons⟩ := List.exists_cons_of_ne_nil t.digits_ne_nil
  exact ⟨c, rest, hcons, t.isDigit_digits c (hcons ▸ List.mem_cons_self)⟩

theorem takeDigits_digits : takeDigits t.digits = (t.digits, []) := by
  have htake : takeDigits (t.digits ++ []) = (t.digits, []) :=
    takeDigits_append t.isDigit_digits (by simp)
  rwa [List.append_nil] at htake

/-- The text without its blanks. -/
theorem trimChars_text : trimChars t.text.toList = t.core := by
  obtain ⟨c, rest, hcons, hc⟩ := t.exists_digits_eq_cons
  rw [text, String.toList_ofList]
  refine trimChars_append t.isBlank_before t.isBlank_after ?_ ?_ (by simp [core, t.digits_ne_nil])
  · intro first hfirst
    rw [core, hcons] at hfirst
    cases hsign : t.sign with
    | none =>
      rw [hsign] at hfirst
      obtain rfl := Option.some.inj hfirst
      exact isBlank_eq_false_of_isDigit hc
    | plus | minus =>
      rw [hsign] at hfirst
      obtain rfl := Option.some.inj hfirst
      rfl
  · intro last hlast
    rw [core, List.getLast?_append, List.getLast?_eq_some_getLast t.digits_ne_nil,
      Option.some_or] at hlast
    obtain rfl := Option.some.inj hlast
    exact isBlank_eq_false_of_isDigit (t.isDigit_digits _ (List.getLast_mem _))

theorem integerOfChars?_core : integerOfChars? t.core = some t.value := by
  obtain ⟨c, rest, hcons, hc⟩ := t.exists_digits_eq_cons
  have hsign := ne_sign_of_isDigit hc
  have htake := t.takeDigits_digits
  rw [core, value, ← natOfDigits_eq_placeValue]
  rw [hcons] at htake ⊢
  cases t.sign with
  | none => simp [Sign.chars, integerOfChars?, Sign.apply, Sign.isMinus, htake, hsign]
  | plus | minus => simp [Sign.chars, integerOfChars?, Sign.apply, Sign.isMinus, htake]

theorem decimalOfChars?_core :
    decimalOfChars? t.core = some ⟨t.sign.isMinus, placeValue t.digits, 0⟩ := by
  obtain ⟨c, rest, hcons, hc⟩ := t.exists_digits_eq_cons
  have hsign := ne_sign_of_isDigit hc
  have htake := t.takeDigits_digits
  rw [core, ← natOfDigits_eq_placeValue]
  rw [hcons] at htake ⊢
  cases t.sign with
  | none => simp [Sign.chars, decimalOfChars?, Sign.isMinus, htake, hsign]
  | plus | minus => simp [Sign.chars, decimalOfChars?, Sign.isMinus, htake]

end IntegerText

end Text

/-! ## Types of integers -/

/-- An integer in the narrowest type that holds it. -/
inductive Bson.Narrowest : Int → Bson → Prop
  | int32 (n : Int32) : Narrowest n.toInt (.int32 n)
  | int64 (n : Int64) (h : ¬(-2 ^ 31 ≤ n.toInt ∧ n.toInt < 2 ^ 31)) :
      Narrowest n.toInt (.int64 n)

/-- An integer of 64 bits has a narrowest type. -/
theorem Bson.exists_ofInt? {v : Int} (h : -2 ^ 63 ≤ v ∧ v < 2 ^ 63) :
    ∃ value, Bson.ofInt? v = some value ∧ Narrowest v value := by
  by_cases hnarrow : -2 ^ 31 ≤ v ∧ v < 2 ^ 31
  · have hvalue := Int32.toInt_ofInt_of_le hnarrow.1 hnarrow.2
    have hnarrowest := Narrowest.int32 (Int32.ofInt v)
    rw [hvalue] at hnarrowest
    exact ⟨_, by rw [Bson.ofInt?, if_pos hnarrow], hnarrowest⟩
  · have hvalue := Int64.toInt_ofInt_of_le h.1 h.2
    have hnarrowest := Narrowest.int64 (Int64.ofInt v) (by rwa [hvalue])
    rw [hvalue] at hnarrowest
    exact ⟨_, by rw [Bson.ofInt?, if_neg hnarrow, if_pos h], hnarrowest⟩

theorem Bson.ofInt?_eq_none {v : Int} (h : ¬(-2 ^ 63 ≤ v ∧ v < 2 ^ 63)) :
    Bson.ofInt? v = none := by
  rw [Bson.ofInt?, if_neg (by omega), if_neg h]

/-- The double nearest to a numeral without fraction and exponent. -/
theorem Decimal.toDouble_integer {sign : Text.Sign} {magnitude : Nat} (h : magnitude ≠ 0) :
    Decimal.toDouble ⟨sign.isMinus, magnitude, 0⟩ = Double.ofInt (sign.apply magnitude) := by
  have hpos : 0 < magnitude := Nat.pos_of_ne_zero h
  have hsign : decide (sign.apply magnitude < 0) = sign.isMinus := by
    cases sign <;> simp [Text.Sign.apply, Text.Sign.isMinus]
    exact hpos
  have hmagnitude : (sign.apply magnitude).natAbs = magnitude := by
    cases sign <;> simp [Text.Sign.apply, Text.Sign.isMinus]
  rw [Double.ofInt, hsign, hmagnitude, Decimal.toDouble, if_neg h, if_neg (by simp),
    if_neg (by simp only; omega), if_pos (Int.le_refl 0)]
  simp

namespace Text

namespace IntegerText

/-- The number that the text of an integer spells. -/
theorem numberOfText?_text (t : IntegerText) :
    Primitive.numberOfText? t.text =
      (Bson.ofInt? t.value).or
        (if (Double.ofInt t.value).isFinite then some (.double (Double.ofInt t.value))
          else none) := by
  rw [Primitive.numberOfText?]
  simp only [trimChars_text, integerOfChars?_core, decimalOfChars?_core, Option.bind_some]
  cases hint : Bson.ofInt? t.value with
  | some value => rfl
  | none =>
    have hne : placeValue t.digits ≠ 0 := by
      intro hzero
      have hvalue : t.value = 0 := by
        rw [value, hzero]
        cases t.sign <;> rfl
      rw [hvalue] at hint
      cases hint
    simp only [Decimal.toDouble_integer hne, Option.none_or, value]
    rfl

/-- The text of an integer as it is written: its digits, after a minus sign if it is
negative. -/
def ofInt (n : Int) : IntegerText where
  before := []
  sign := match n with
    | .ofNat _ => .none
    | .negSucc _ => .minus
  digits := Text.digits n.natAbs
  after := []
  isBlank_before := by simp
  digits_ne_nil := by
    obtain ⟨c, rest, hcons, -⟩ := Text.exists_digits_eq_cons n.natAbs
    simp [hcons]
  isDigit_digits := isDigit_of_mem_digits
  isBlank_after := by simp

theorem text_ofInt (n : Int) : (ofInt n).text = String.ofList (integerChars n) := by
  cases n <;> simp [text, core, ofInt, integerChars, Sign.chars]

theorem value_ofInt (n : Int) : (ofInt n).value = n := by
  have hdigits : placeValue (ofInt n).digits = n.natAbs := by
    rw [← natOfDigits_eq_placeValue]
    exact natOfDigits_digits n.natAbs
  rw [value, hdigits]
  cases n <;> rfl

end IntegerText

end Text

namespace Primitive

/-- A text that spells an integer of at most 64 bits is cast to it. -/
theorem narrowest_coerce_number {t : Text.IntegerText} (h : -2 ^ 63 ≤ t.value ∧ t.value < 2 ^ 63) :
    Bson.Narrowest t.value (number.coerce (.string t.text)) := by
  obtain ⟨value, hvalue, hnarrowest⟩ := Bson.exists_ofInt? h
  rw [coerce, t.numberOfText?_text, hvalue]
  exact hnarrowest

/-- The text of an integer is cast to the integer. -/
theorem narrowest_coerce_integerChars {n : Int} (h : -2 ^ 63 ≤ n ∧ n < 2 ^ 63) :
    Bson.Narrowest n (number.coerce (.string (String.ofList (Text.integerChars n)))) := by
  have hvalue := Text.IntegerText.value_ofInt n
  have hnarrowest := narrowest_coerce_number (t := .ofInt n) (by rwa [hvalue])
  rwa [hvalue, Text.IntegerText.text_ofInt] at hnarrowest

/-- Casts of integers are exact.  A text of blanks, an optional sign, digits and blanks is
cast to the integer that it spells, in the narrowest type that holds it; if none does, it is
cast to the nearest double if that is finite, and stays a text otherwise.  An integer that
is cast to a text and back is the same integer, in the narrowest type. -/
theorem integers_cast_exactly :
    (∀ t : Text.IntegerText,
      (-2 ^ 63 ≤ t.value ∧ t.value < 2 ^ 63 →
        Bson.Narrowest t.value (number.coerce (.string t.text))) ∧
      (¬(-2 ^ 63 ≤ t.value ∧ t.value < 2 ^ 63) →
        number.coerce (.string t.text) =
          if (Double.ofInt t.value).isFinite then .double (Double.ofInt t.value)
          else .string t.text)) ∧
    (∀ n : Int64, Bson.Narrowest n.toInt (number.coerce (string.coerce (.int64 n)))) ∧
    ∀ n : Int32, Bson.Narrowest n.toInt (number.coerce (string.coerce (.int32 n))) := by
  refine ⟨fun t => ⟨narrowest_coerce_number, fun h => ?_⟩, fun n => ?_, fun n => ?_⟩
  · rw [coerce, t.numberOfText?_text, Bson.ofInt?_eq_none h, Option.none_or]
    split <;> rfl
  · exact narrowest_coerce_integerChars ⟨n.le_toInt, n.toInt_lt⟩
  · have hlow := n.le_toInt
    have hhigh := n.toInt_lt
    exact narrowest_coerce_integerChars (by omega)

/-- The least integer of 64 bits, and the first that is too large. -/
theorem integers_cast_exactly_limits :
    Bson.Narrowest (-9223372036854775808)
        (number.coerce (.string " -009223372036854775808")) ∧
      number.coerce (.string "+9223372036854775808 ") =
        .double (Double.ofInt 9223372036854775808) := by
  let least : Text.IntegerText :=
    ⟨[' '], .minus, "009223372036854775808".toList, [],
      List.forall_mem_singleton.2 (by decide), by decide, List.all_eq_true.1 (by decide),
      List.forall_mem_nil _⟩
  let large : Text.IntegerText :=
    ⟨[], .plus, "9223372036854775808".toList, [' '], List.forall_mem_nil _,
      by decide, List.all_eq_true.1 (by decide), List.forall_mem_singleton.2 (by decide)⟩
  have hleast : least.value = -9223372036854775808 := by decide +kernel
  have hlarge : large.value = 9223372036854775808 := by decide +kernel
  constructor
  · exact hleast ▸ (integers_cast_exactly.1 least).1 (by rw [hleast]; decide)
  · have hcast := (integers_cast_exactly.1 large).2 (by rw [hlarge]; decide)
    rw [hlarge, if_pos (by decide +kernel)] at hcast
    exact hcast

end Primitive

end DocGate
