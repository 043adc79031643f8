import DocGate.Json.Raw

/-!
# Number literals as doubles

The double of a number literal is computed in three steps, each of which may
lose digits, so it is not always the double nearest to the literal.

* `Numeral.absorb` reads digits into a significand of 64 bits.  The digits of
  the integer part that do not fit count as powers of ten; those of the
  fraction are ignored.
* The significand is rounded to a double.
* `Double.scale?` multiplies it by a power of ten, or divides it by one.  Powers
  beyond `10 ^ 308` are no doubles: a factor out of this range is refused, a
  divisor is split.
-/

namespace DocGate

namespace Double

/-- The greatest power of ten that is a finite double. -/
def maxPowerOfTen : Nat := 308

/-- The double nearest to a power of ten. -/
def powerOfTen (power : Nat) : Double :=
  ofRatio false (10 ^ power) 1

/-- The double over the greatest power of ten, as often as `steps` says.  Zero
stays as it is. -/
def lower : Nat → Double → Double
  | 0, d => d
  | steps + 1, d => if d.isZero then d else lower steps (d.divide (powerOfTen maxPowerOfTen))

/-- A finite double times a power of ten, if the result is finite too. -/
def scale? (d : Double) : Int → Option Double
  | .ofNat power =>
    if power ≤ maxPowerOfTen then
      let product := d.multiply (powerOfTen power)
      if product.isFinite then some product else none
    else if d.isZero then some d
    else none
  | .negSucc before =>
    -- What is left after the steps is a power between 1 and the greatest one.
    let steps := before / maxPowerOfTen
    some ((lower steps d).divide (powerOfTen (before + 1 - steps * maxPowerOfTen)))

end Double

namespace Numeral

/-- Reads digits into a significand as long as it has no more than 64 bits, and
gives the digits that are left. -/
def absorb : Nat → List (Fin 10) → Nat × List (Fin 10)
  | significand, [] => (significand, [])
  | significand, digit :: rest =>
    let longer := 10 * significand + digit.val
    if longer < 2 ^ 64 then absorb longer rest else (significand, digit :: rest)

/-- The digits in front are read into the significand, and the next one would not
fit. -/
theorem absorb_spec {significand : Nat} (hfits : significand < 2 ^ 64) (digits : List (Fin 10)) :
    ∃ taken, digits = taken ++ (absorb significand digits).2 ∧
      (absorb significand digits).1 =
        taken.foldl (fun value digit => 10 * value + digit.val) significand ∧
      (absorb significand digits).1 < 2 ^ 64 ∧
      ∀ next ∈ (absorb significand digits).2.head?,
        2 ^ 64 ≤ 10 * (absorb significand digits).1 + next.val := by
  induction digits generalizing significand with
  | nil => exact ⟨[], rfl, rfl, hfits, nofun⟩
  | cons digit rest ih =>
    by_cases hlonger : 10 * significand + digit.val < 2 ^ 64
    · obtain ⟨taken, hdigits, hvalue, hbound, hnext⟩ := ih hlonger
      rw [absorb, if_pos hlonger]
      exact ⟨digit :: taken, congrArg (digit :: ·) hdigits, hvalue, hbound, hnext⟩
    · rw [absorb, if_neg hlonger]
      refine ⟨[], rfl, rfl, hfits, fun next hnext => ?_⟩
      obtain rfl := Option.some.inj hnext
      exact Nat.le_of_not_lt hlonger

/-- The double of a number literal, if it is finite. -/
def toDouble? (negative : Bool) (whole : Nat) (fraction : List (Fin 10)) (power : Int) :
    Option Double :=
  let (leading, scaled) := absorb 0 ((Text.digits whole).map Text.digitOfChar)
  let (significand, ignored) := absorb leading fraction
  let behindPoint : Int := (fraction.length : Int) - ignored.length
  (Double.ofRatio negative significand 1).scale? (scaled.length - behindPoint + power)

example : toDouble? true 0 [] 0 = some ⟨0x8000000000000000⟩ := by decide +kernel
example : toDouble? false 0 [1] 0 = some ⟨0x3FB999999999999A⟩ := by decide +kernel
-- The nearest double ends in 98.
example : toDouble? false 9 [5, 1, 8, 2, 6, 5, 3, 8, 1, 8, 0, 4, 9, 3, 7] 0 =
    some ⟨0x4023095A14830097⟩ := by decide +kernel
-- The nearest double is the greatest one.
example : toDouble? false 1 [7, 9, 7, 6, 9, 3, 1, 3, 4, 8, 6, 2, 3, 1, 5, 8] 308 = none := by
  decide +kernel
example : toDouble? false 1 [] (-400) = some ⟨0⟩ := by decide +kernel

end Numeral

end DocGate
