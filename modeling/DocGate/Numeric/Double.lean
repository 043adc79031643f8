/-!
# Double-precision numbers

A `Double` is its 64 bits in the IEEE 754 interchange format: a sign, eleven
bits of exponent and 52 bits of fraction.  Everything about it is computed
exactly from these fields, in naturals and integers.

* The fields.  A finite double is `significand * 2 ^ exponent`, with its sign.
* The order.  `orderKey` maps the doubles that are not a NaN to integers in
  their order; both zeros go to 0.
* Rounding.  `ofRatio` gives the double nearest to a quotient of naturals, the
  even one of two at the same distance.
* Products and quotients of finite doubles, each rounded once.
-/

-- A power is the one of natural numbers themselves, here and in every module, also
-- where other instances are in scope.
attribute [default_instance high, instance (high)] instPowNat

namespace DocGate

/-- A double-precision number, given by its bits. -/
structure Double where
  bits : UInt64
  deriving DecidableEq, Repr

namespace Double

/-! ## The fields -/

/-- Whether the sign bit is set. -/
def negative (d : Double) : Bool :=
  2 ^ 63 ≤ d.bits.toNat

/-- The eleven bits of exponent. -/
def exponentField (d : Double) : Nat :=
  d.bits.toNat / 2 ^ 52 % 2 ^ 11

/-- The 52 bits of fraction. -/
def fractionField (d : Double) : Nat :=
  d.bits.toNat % 2 ^ 52

/-- Whether the bits stand for a number and not for an infinity or a NaN. -/
def isFinite (d : Double) : Bool :=
  d.exponentField != 2047

/-- Whether the bits stand for no number at all. -/
def isNaN (d : Double) : Bool :=
  d.exponentField == 2047 && d.fractionField != 0

/-- The integer part of a finite double's value: the value is
`significand * 2 ^ exponent` up to sign. -/
def significand (d : Double) : Nat :=
  if d.exponentField = 0 then d.fractionField else 2 ^ 52 + d.fractionField

/-- The power of two of a finite double's value. -/
def exponent (d : Double) : Int :=
  if d.exponentField = 0 then -1074 else (d.exponentField : Int) - 1075

/-- The double with the given sign and magnitude bits. -/
def ofFields (negative : Bool) (magnitude : Nat) : Double :=
  ⟨UInt64.ofNat ((if negative then 2 ^ 63 else 0) + magnitude)⟩

/-- The magnitude bits of the infinities. -/
def infinityMagnitude : Nat :=
  2047 * 2 ^ 52

/-! ## The order -/

/-- The place of a double that is not a NaN among the others, as an integer;
both zeros have place 0. -/
def orderKey (d : Double) : Int :=
  let magnitude : Int := (d.bits.toNat % 2 ^ 63 : Nat)
  if d.negative then -magnitude else magnitude

/-- Whether the double is one of the two zeros. -/
def isZero (d : Double) : Bool :=
  d.orderKey == 0

/-- Equality of values: the zeros are equal, a NaN is equal to nothing. -/
def equals (a b : Double) : Bool :=
  !a.isNaN && !b.isNaN && a.orderKey == b.orderKey

/-- Comparison of values; a NaN compares with nothing. -/
def compare? (a b : Double) : Option Ordering :=
  if a.isNaN || b.isNaN then none else some (compare a.orderKey b.orderKey)

/-! ## Rounding -/

/-- The natural nearest to `num / den`, the even one of two. -/
def divideToNearest (num den : Nat) : Nat :=
  let quotient := num / den
  let rest := 2 * (num % den)
  if rest < den then quotient
  else if den < rest then quotient + 1
  else quotient + quotient % 2

/-- The exponent of the double nearest to `num / den`: the one under which the
significand has 53 bits, or the least exponent there is. -/
def ratioExponent (num den : Nat) : Int :=
  let guess : Int := (num.log2 : Int) - den.log2 - 53
  let scaled :=
    if 0 ≤ guess then num / (den * 2 ^ guess.toNat) else num * 2 ^ (-guess).toNat / den
  let exponent := if 2 ^ 53 ≤ scaled then guess + 1 else guess
  max exponent (-1074)

/-- The double nearest to `num / den`, ties to even.  What is too large becomes
an infinity and what is too small a zero; the sign is kept. -/
def ofRatio (negative : Bool) (num den : Nat) : Double :=
  if num = 0 then ofFields negative 0
  else
    let exponent := ratioExponent num den
    let significand :=
      if 0 ≤ exponent then divideToNearest num (den * 2 ^ exponent.toNat)
      else divideToNearest (num * 2 ^ (-exponent).toNat) den
    ofFields negative (min ((exponent + 1074).toNat * 2 ^ 52 + significand) infinityMagnitude)

/-- The double nearest to an integer. -/
def ofInt (n : Int) : Double :=
  ofRatio (n < 0) n.natAbs 1

/-! ## Products and quotients -/

/-- The product of two finite doubles. -/
def multiply (a b : Double) : Double :=
  let exponent := a.exponent + b.exponent
  ofRatio (a.negative != b.negative) (a.significand * b.significand * 2 ^ exponent.toNat)
    (2 ^ (-exponent).toNat)

/-- The quotient of two finite doubles, the second one not zero. -/
def divide (a b : Double) : Double :=
  let exponent := a.exponent - b.exponent
  ofRatio (a.negative != b.negative) (a.significand * 2 ^ exponent.toNat)
    (b.significand * 2 ^ (-exponent).toNat)

/-! ## Facts -/

/-- There are two zeros. -/
theorem isZero_iff {d : Double} : d.isZero = true ↔ d = ⟨0⟩ ∨ d = ⟨0x8000000000000000⟩ := by
  have hkey : d.isZero = true ↔ d.bits.toNat % 2 ^ 63 = 0 := by
    rw [isZero, beq_iff_eq, orderKey]
    split <;> omega
  obtain ⟨bits⟩ := d
  have hlt : bits.toNat < 2 ^ 64 := bits.toNat_lt
  rw [hkey, mk.injEq, mk.injEq, ← UInt64.toNat_inj, ← UInt64.toNat_inj]
  show bits.toNat % 2 ^ 63 = 0 ↔ bits.toNat = 0 ∨ bits.toNat = 2 ^ 63
  omega

/-- Rounding an integer never gives a NaN. -/
theorem isNaN_ofInt (n : Int) : (ofInt n).isNaN = false := by
  have hfields : ∀ negative magnitude, magnitude ≤ infinityMagnitude →
      (ofFields negative magnitude).isNaN = false := by
    intro negative magnitude hmagnitude
    have hbits : (ofFields negative magnitude).bits.toNat =
        (if negative then 2 ^ 63 else 0) + magnitude := by
      rw [ofFields, UInt64.toNat_ofNat', infinityMagnitude] at *
      split <;> omega
    have hsplit : magnitude < 2047 * 2 ^ 52 ∨ magnitude = 2047 * 2 ^ 52 :=
      Nat.lt_or_eq_of_le hmagnitude
    rw [isNaN, Bool.and_eq_false_iff, beq_eq_false_iff_ne, bne_eq_false_iff_eq, exponentField,
      fractionField, hbits]
    split <;> omega
  rw [ofInt, ofRatio]
  split
  · exact hfields _ _ (Nat.zero_le _)
  · exact hfields _ _ (Nat.min_le_right _ _)

/-- A double that is not a NaN equals itself. -/
theorem equals_self {d : Double} (h : d.isNaN = false) : d.equals d = true := by
  simp [equals, h]

/-- Equality of values is the case of comparison that finds neither greater. -/
theorem equals_eq_compare? (a b : Double) : a.equals b = (a.compare? b == some .eq) := by
  have hkeys : (compare a.orderKey b.orderKey == Ordering.eq) = (a.orderKey == b.orderKey) := by
    rw [Bool.eq_iff_iff, beq_iff_eq, beq_iff_eq, Std.LawfulEqCmp.compare_eq_iff_eq]
  rw [equals, compare?]
  cases a.isNaN with
  | true => rfl
  | false =>
    cases b.isNaN with
    | true => rfl
    | false => exact hkeys.symm

example : ofInt 9007199254740993 = ofInt 9007199254740992 := by decide +kernel
example : ofRatio false 1 10 = ⟨0x3FB999999999999A⟩ := by decide +kernel
example : ofRatio true 0 1 = ⟨0x8000000000000000⟩ := by decide +kernel
example : ofRatio false 1 (2 ^ 1075) = ⟨0⟩ := by decide +kernel
example : ofRatio false 3 (2 ^ 1075) = ⟨2⟩ := by decide +kernel
example : ofRatio false (2 ^ 1024) 1 = ⟨0x7FF0000000000000⟩ := by decide +kernel
example : (ofInt (-3)).divide (ofInt 10) = ⟨0xBFD3333333333333⟩ := by decide +kernel
example : (ofRatio false 1 10).multiply (ofInt 3) = ⟨0x3FD3333333333334⟩ := by decide +kernel

end Double

end DocGate
