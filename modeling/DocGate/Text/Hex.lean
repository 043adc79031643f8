/-!
# Hexadecimal digits

Numbers written with a fixed count of hexadecimal digits, lower case when
written, either case when read: identifiers and the escapes of JSON strings.
-/

namespace DocGate

namespace Text

/-- The value of a hexadecimal digit of either case. -/
def hexValue? (c : Char) : Option Nat :=
  let code := c.toNat
  if 48 ≤ code ∧ code ≤ 57 then some (code - 48)
  else if 97 ≤ code ∧ code ≤ 102 then some (code - 87)
  else if 65 ≤ code ∧ code ≤ 70 then some (code - 55)
  else none

/-- The last `count` hexadecimal digits of `n`, lower case, most significant first. -/
def hexChars : Nat → Nat → List Char
  | 0, _ => []
  | count + 1, n => Nat.digitChar (n / 16 ^ count % 16) :: hexChars count n

/-- The natural that hexadecimal digits stand for, continuing from `high`. -/
def natOfHexFrom? : Nat → List Char → Option Nat
  | high, [] => some high
  | high, c :: cs =>
    match hexValue? c with
    | some value => natOfHexFrom? (16 * high + value) cs
    | none => none

/-- The natural that hexadecimal digits stand for. -/
def natOfHex? (cs : List Char) : Option Nat :=
  natOfHexFrom? 0 cs

theorem length_hexChars (count n : Nat) : (hexChars count n).length = count := by
  induction count with
  | zero => rfl
  | succ count ih => simp [hexChars, ih]

/-- The characters of a number in hexadecimal digits. -/
theorem mem_hexChars {count n : Nat} {c : Char} (h : c ∈ hexChars count n) :
    ∃ digit < 16, c = Nat.digitChar digit := by
  induction count with
  | zero => cases h
  | succ count ih =>
    rw [hexChars, List.mem_cons] at h
    obtain rfl | h := h
    · exact ⟨_, Nat.mod_lt _ (by decide), rfl⟩
    · exact ih h

theorem hexValue?_digitChar {n : Nat} (h : n < 16) : hexValue? (Nat.digitChar n) = some n := by
  have key : ∀ m : Fin 16, hexValue? (Nat.digitChar m.val) = some m.val := by decide
  exact key ⟨n, h⟩

/-- Reading the last digits of a number gives the number up to a multiple of
the power of sixteen that they span. -/
theorem natOfHexFrom?_hexChars (count high n : Nat) :
    natOfHexFrom? high (hexChars count n) = some (high * 16 ^ count + n % 16 ^ count) := by
  induction count generalizing high with
  | zero => simp [hexChars, natOfHexFrom?, Nat.mod_one]
  | succ count ih =>
    have hd : n / 16 ^ count % 16 < 16 := Nat.mod_lt _ (by decide)
    rw [hexChars, natOfHexFrom?, hexValue?_digitChar hd]
    simp only [ih]
    congr 1
    have hm : n % 16 ^ (count + 1) = n % 16 ^ count + 16 ^ count * (n / 16 ^ count % 16) := by
      rw [Nat.pow_succ, Nat.mod_mul]
    rw [hm, Nat.pow_succ, Nat.add_mul]
    rw [Nat.mul_comm (n / 16 ^ count % 16) (16 ^ count)]
    rw [Nat.mul_comm 16 high, Nat.mul_assoc, Nat.mul_comm 16 (16 ^ count)]
    omega

end Text

end DocGate
