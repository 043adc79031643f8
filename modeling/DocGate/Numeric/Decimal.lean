import DocGate.Numeric.Double

/-!
# Numbers in decimal notation

The value of a decimal numeral is a natural mantissa times a power of ten with
a sign.  `Decimal.toDouble` rounds it to the nearest double.

The scanners below take decimal digits and an exponent from the front of a
text; both the numbers of JSON and the numbers that stored strings hold are
put together from them.
-/

namespace DocGate

/-- The value `mantissa * 10 ^ exponent`, with a sign. -/
structure Decimal where
  negative : Bool
  mantissa : Nat
  exponent : Int
  deriving DecidableEq, Repr

namespace Decimal

/-- The double nearest to the value.  The first two tests keep the powers of
ten small: beyond them the value is larger than every double, or less than half
of the least. -/
def toDouble (d : Decimal) : Double :=
  if d.mantissa = 0 then Double.ofFields d.negative 0
  else if 400 < d.exponent then Double.ofFields d.negative Double.infinityMagnitude
  else if d.exponent + d.mantissa.log2 < -1200 then Double.ofFields d.negative 0
  else if 0 ≤ d.exponent then Double.ofRatio d.negative (d.mantissa * 10 ^ d.exponent.toNat) 1
  else Double.ofRatio d.negative d.mantissa (10 ^ (-d.exponent).toNat)

end Decimal

namespace Text

/-! ## Scanning digits -/

/-- The decimal digits of `n`. -/
def digits (n : Nat) : List Char :=
  Nat.toDigits 10 n

/-- The value of a decimal digit. -/
def digitOfChar (c : Char) : Fin 10 :=
  Fin.ofNat 10 (c.toNat - '0'.toNat)

/-- The digit with a value. -/
def charOfDigit (digit : Fin 10) : Char :=
  Nat.digitChar digit.val

/-- The natural that decimal digits stand for. -/
def natOfDigits (ds : List Char) : Nat :=
  Nat.ofDigitChars 10 ds 0

/-- The digits at the front of a text, and the rest. -/
def takeDigits (cs : List Char) : List Char × List Char :=
  (cs.takeWhile Char.isDigit, cs.dropWhile Char.isDigit)

/-- An exponent after its mark: an optional sign and at least one digit. -/
def takeExponent? (cs : List Char) : Option (Int × List Char) :=
  let (negative, unsigned) : Bool × List Char :=
    match cs with
    | '-' :: rest => (true, rest)
    | '+' :: rest => (false, rest)
    | _ => (false, cs)
  match takeDigits unsigned with
  | ([], _) => none
  | (ds, rest) =>
    let magnitude : Int := natOfDigits ds
    some (if negative then -magnitude else magnitude, rest)

/-- The text of an integer: its digits, after a minus sign if it is negative. -/
def integerChars : Int → List Char
  | .ofNat n => digits n
  | .negSucc n => '-' :: digits (n + 1)

/-- The integer written by an optional sign and at least one digit, with
nothing before or after. -/
def integerOfChars? (cs : List Char) : Option Int :=
  let (negative, unsigned) : Bool × List Char :=
    match cs with
    | '-' :: rest => (true, rest)
    | '+' :: rest => (false, rest)
    | _ => (false, cs)
  match takeDigits unsigned with
  | ([], _) => none
  | (_, _ :: _) => none
  | (ds, []) =>
    let magnitude : Int := natOfDigits ds
    some (if negative then -magnitude else magnitude)

/-- The decimal written by an optional sign, digits with an optional point and
an optional exponent, with nothing before or after.  One digit is required,
before the point or after it. -/
def decimalOfChars? (cs : List Char) : Option Decimal :=
  let (negative, unsigned) : Bool × List Char :=
    match cs with
    | '-' :: rest => (true, rest)
    | '+' :: rest => (false, rest)
    | _ => (false, cs)
  let (whole, afterWhole) := takeDigits unsigned
  let (fraction, afterFraction) :=
    match afterWhole with
    | '.' :: rest => takeDigits rest
    | _ => ([], afterWhole)
  if whole.isEmpty && fraction.isEmpty then none
  else
    let scaled (power : Int) : Decimal :=
      ⟨negative, natOfDigits (whole ++ fraction), power - fraction.length⟩
    match afterFraction with
    | [] => some (scaled 0)
    | mark :: rest =>
      if mark = 'e' || mark = 'E' then
        match takeExponent? rest with
        | some (power, []) => some (scaled power)
        | _ => none
      else none

theorem digitOfChar_charOfDigit : ∀ digit, digitOfChar (charOfDigit digit) = digit := by
  decide

theorem isDigit_charOfDigit : ∀ digit, (charOfDigit digit).isDigit = true := by
  decide

theorem natOfDigits_digits (n : Nat) : natOfDigits (digits n) = n := by
  simp [natOfDigits, digits]

/-- A digit counts for its place, the number of digits behind it. -/
theorem natOfDigits_cons (c : Char) (rest : List Char) :
    natOfDigits (c :: rest) = (c.toNat - '0'.toNat) * 10 ^ rest.length + natOfDigits rest := by
  rw [natOfDigits, Nat.ofDigitChars_cons, Nat.ofDigitChars_eq_ofDigitChars_zero, natOfDigits,
    Nat.mul_zero, Nat.zero_add, Nat.mul_comm]

example : decimalOfChars? "-1.50e3".toList = some ⟨true, 150, 1⟩ := by decide +kernel
example : decimalOfChars? ".5".toList = some ⟨false, 5, -1⟩ := by decide +kernel
example : decimalOfChars? "5.".toList = some ⟨false, 5, 0⟩ := by decide +kernel
example : decimalOfChars? ".".toList = none := by decide +kernel
example : decimalOfChars? "1e".toList = none := by decide +kernel
example : integerOfChars? "+007".toList = some 7 := by decide +kernel
example : integerOfChars? "-".toList = none := by decide +kernel

end Text

end DocGate
