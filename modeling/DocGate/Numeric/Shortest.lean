import DocGate.Numeric.Decimal

/-!
# The text of a double

`Double.shortest` gives the decimal with the fewest digits among those that
round to a given finite double, and of several the nearest to it.  For one
digit, then two, and so on it tries the two neighbours of the value on the
grid of decimals with so many digits; seventeen digits always suffice.

`Double.text` writes that decimal in positional notation, whatever its size:
no exponent, no fraction for whole numbers, and a minus sign also before zero.
-/

namespace DocGate

namespace Double

/-- A magnitude as a quotient of naturals: `significand * 2 ^ exponent`. -/
def scaledRatio (significand : Nat) (exponent : Int) : Nat × Nat :=
  if 0 ≤ exponent then (significand * 2 ^ exponent.toNat, 1)
  else (significand, 2 ^ (-exponent).toNat)

/-- How many quarters of a unit in the last place lie between a finite double
and the middle to its lower neighbour: two, or one where the neighbour belongs
to the next lower power of two. -/
def quartersBelow (d : Double) : Nat :=
  if d.fractionField = 0 ∧ 1 < d.exponentField then 1 else 2

/-- Whether `digits * 10 ^ power` rounds to the magnitude of the finite double
`d`: it lies between the middles to the two neighbours, or on one of them if
the significand is even. -/
def readsBack (d : Double) (digits : Nat) (power : Int) : Bool :=
  let (num, den) := if 0 ≤ power then (digits * 10 ^ power.toNat, 1) else (digits, 10 ^ (-power).toNat)
  let (low, lowDen) := scaledRatio (4 * d.significand - d.quartersBelow) (d.exponent - 2)
  let (high, highDen) := scaledRatio (4 * d.significand + 2) (d.exponent - 2)
  if d.significand % 2 = 0 then low * den ≤ num * lowDen && num * highDen ≤ high * den
  else low * den < num * lowDen && num * highDen < high * den

/-- The power of ten of the leading digit of `num / den`, for a positive
quotient: an estimate from the binary lengths, put right by comparing. -/
def leadingPower (num den : Nat) : Int :=
  let estimate : Int := ((num.log2 : Int) - den.log2) * 30103 / 100000
  let reached (power : Int) : Bool :=
    if 0 ≤ power then den * 10 ^ power.toNat ≤ num else den ≤ num * 10 ^ (-power).toNat
  if reached (estimate + 1) then estimate + 1
  else if reached estimate then estimate
  else estimate - 1

/-- The neighbour of the double's magnitude on the grid `10 ^ power` that reads
back; of two the nearer, and the upper one at equal distance. -/
def neighbour? (d : Double) (power : Int) : Option Nat :=
  let (num, den) := scaledRatio d.significand d.exponent
  let (num, den) :=
    if 0 ≤ power then (num, den * 10 ^ power.toNat) else (num * 10 ^ (-power).toNat, den)
  let below := num / den
  let above := below + 1
  let nearerBelow : Bool := 2 * (num % den) < den
  match d.readsBack below power, d.readsBack above power with
  | true, true => some (if nearerBelow then below else above)
  | true, false => some below
  | false, true => some above
  | false, false => none

/-- Tries the grids from coarse to fine, `grids` of them, the first at `power`.
Ten units of the first grid are one of the next coarser. -/
def firstNeighbour (d : Double) : Nat → Int → Option (Nat × Int)
  | 0, _ => none
  | grids + 1, power =>
    match d.neighbour? power with
    | some digits => some (if digits = 10 then (1, power + 1) else (digits, power))
    | none => firstNeighbour d grids (power - 1)

/-- The shortest decimal that reads back as the finite double `d`. -/
def shortest (d : Double) : Decimal :=
  if d.significand = 0 then ⟨d.negative, 0, 0⟩
  else
    let (num, den) := scaledRatio d.significand d.exponent
    match d.firstNeighbour 17 (leadingPower num den) with
    | some (digits, power) => ⟨d.negative, digits, power⟩
    | none => ⟨d.negative, 0, 0⟩

end Double

/-- The positional notation of a decimal: all zeros written out, no exponent. -/
def Decimal.positional (d : Decimal) : List Char :=
  let ds := Text.digits d.mantissa
  let magnitude :=
    if 0 ≤ d.exponent then ds ++ List.replicate d.exponent.toNat '0'
    else
      let places := (-d.exponent).toNat
      let padded := List.replicate (places + 1 - ds.length) '0' ++ ds
      padded.take (padded.length - places) ++ '.' :: padded.drop (padded.length - places)
  if d.negative then '-' :: magnitude else magnitude

/-- The text of a double: its shortest decimal in positional notation. -/
def Double.text (d : Double) : String :=
  if d.isNaN then "NaN"
  else if !d.isFinite then (if d.negative then "-inf" else "inf")
  else String.ofList d.shortest.positional

example : (Double.text ⟨0x3FB999999999999A⟩).toList = "0.1".toList := by decide +kernel
example : (Double.text ⟨0x8000000000000000⟩).toList = "-0".toList := by decide +kernel
example : (Double.text ⟨0x4059000000000000⟩).toList = "100".toList := by decide +kernel
example : (Double.text ⟨0x4415AF1D78B58C40⟩).toList = "100000000000000000000".toList := by
  decide +kernel
example : Double.shortest ⟨1⟩ = ⟨false, 5, -324⟩ := by decide +kernel
example : Double.shortest ⟨2⟩ = ⟨false, 1, -323⟩ := by decide +kernel

end DocGate
