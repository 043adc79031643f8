import DocGate.Json.Printer
import DocGate.Json.Reader

/-!
# Number literals read back

A number literal that was written is read back with its sign, its digits and
its exponent (`RawJson.takeNumber?_numeralChars`).  The scanner takes as many
characters as it can, so the text after the literal must not go on with the
number: `RawJson.EndsNumber` says what that text may start with.
-/

namespace DocGate

namespace Text

/-! ## Digits -/

theorem isDigit_of_mem_digits {n : Nat} : ∀ c ∈ digits n, c.isDigit = true := by
  intro c hc
  exact Nat.isDigit_of_mem_toDigits (by decide) (by decide) hc

/-- A number has a first digit, which is a zero for zero only. -/
theorem exists_digits_eq_cons (n : Nat) :
    ∃ c rest, digits n = c :: rest ∧ (c = '0' → n = 0) := by
  induction n using Nat.strongRecOn with
  | ind n ih =>
    by_cases hlt : n < 10
    · exact ⟨n.digitChar, [], Nat.toDigits_of_lt_base hlt, Nat.digitChar_eq_zero.1⟩
    · obtain ⟨c, rest, hdigits, hzero⟩ := ih (n / 10) (by omega)
      refine ⟨c, rest ++ [(n % 10).digitChar], ?_, fun hc => ?_⟩
      · rw [digits, Nat.toDigits_of_base_le (by decide) (by omega), ← List.cons_append]
        exact congrArg (· ++ _) hdigits
      · have hquotient := hzero hc
        omega

/-- A number is written without a superfluous zero. -/
theorem digits_ne_zero_cons {n : Nat} {c : Char} {rest : List Char} :
    digits n ≠ '0' :: c :: rest := by
  intro h
  obtain ⟨first, more, hdigits, hzero⟩ := exists_digits_eq_cons n
  rw [h] at hdigits
  have hn : n = 0 := hzero (List.cons.inj hdigits).1.symm
  rw [hn, digits, Nat.toDigits_zero] at h
  cases h

/-- The digits in front of another text are taken as they stand. -/
theorem takeDigits_append {ds rest : List Char} (hds : ∀ c ∈ ds, c.isDigit = true)
    (hrest : ∀ c, rest.head? = some c → c.isDigit = false) :
    takeDigits (ds ++ rest) = (ds, rest) := by
  have hstop : rest.takeWhile Char.isDigit = [] ∧ rest.dropWhile Char.isDigit = rest := by
    cases rest with
    | nil => exact ⟨rfl, rfl⟩
    | cons c more =>
      have hc : ¬ c.isDigit = true := by simp [hrest c rfl]
      exact ⟨List.takeWhile_cons_of_neg hc, List.dropWhile_cons_of_neg hc⟩
  rw [takeDigits, List.takeWhile_append_of_pos hds, List.dropWhile_append_of_pos hds, hstop.1,
    hstop.2, List.append_nil]

theorem ne_sign_of_isDigit {c : Char} (h : c.isDigit = true) : c ≠ '-' ∧ c ≠ '+' := by
  constructor
  · rintro rfl
    exact absurd h (by decide)
  · rintro rfl
    exact absurd h (by decide)

/-- The exponent in front of another text is read back. -/
theorem takeExponent?_integerChars (power : Int) {rest : List Char}
    (hrest : ∀ c, rest.head? = some c → c.isDigit = false) :
    takeExponent? (integerChars power ++ rest) = some (power, rest) := by
  cases power with
  | ofNat n =>
    have htake := takeDigits_append (isDigit_of_mem_digits (n := n)) hrest
    obtain ⟨c, more, hdigits, -⟩ := exists_digits_eq_cons n
    have hc : c.isDigit = true := isDigit_of_mem_digits c (hdigits ▸ List.mem_cons_self)
    rw [integerChars, hdigits, takeExponent?]
    · simp only [← hdigits, htake]
      rw [hdigits]
      simp only [← hdigits, natOfDigits_digits]
      rfl
    · intro _ h
      exact (ne_sign_of_isDigit hc).1 (List.cons.inj h).1
    · intro _ h
      exact (ne_sign_of_isDigit hc).2 (List.cons.inj h).1
  | negSucc n =>
    have htake := takeDigits_append (isDigit_of_mem_digits (n := n + 1)) hrest
    obtain ⟨c, more, hdigits, -⟩ := exists_digits_eq_cons (n + 1)
    rw [integerChars, List.cons_append, takeExponent?]
    simp only [htake]
    rw [hdigits]
    simp only [← hdigits, natOfDigits_digits]
    rfl

end Text

namespace RawJson

/-! ## Numbers -/

/-- A text that does not go on with a number: it starts with no digit, no point
and no mark of an exponent. -/
def EndsNumber (rest : List Char) : Prop :=
  ∀ c, rest.head? = some c → c.isDigit = false ∧ c ≠ '.' ∧ c ≠ 'e' ∧ c ≠ 'E'

/-- No fraction is taken where there is none. -/
theorem takeFraction?_of_endsNumber {rest : List Char} (h : EndsNumber rest) :
    takeFraction? rest = some ([], rest) := by
  rw [takeFraction?]
  rintro more rfl
  exact (h '.' rfl).2.1 rfl

/-- No exponent is taken where there is none. -/
theorem takePower?_of_endsNumber {rest : List Char} (h : EndsNumber rest) :
    takePower? rest = some (none, rest) := by
  cases rest with
  | nil => rfl
  | cons c more =>
    obtain ⟨-, -, hlower, hupper⟩ := h c rfl
    rw [takePower?, if_neg fun hmark => hmark.elim hlower hupper]

/-- The integer part ends before a written fraction, and before what follows it if
there is none. -/
theorem isDigit_head?_fractionChars (fraction : List (Fin 10)) {c : Char} {rest : List Char}
    (hdigit : c.isDigit = false) :
    ∀ d, (fractionChars fraction ++ c :: rest).head? = some d → d.isDigit = false := by
  intro d hd
  cases fraction with
  | nil => exact Option.some.inj hd ▸ hdigit
  | cons digit more => exact Option.some.inj hd ▸ by decide

/-- A written fraction is read back if no digit follows it, and no fraction is
read where none was written and no point follows. -/
theorem takeFraction?_fractionChars (fraction : List (Fin 10)) {c : Char} {rest : List Char}
    (hdigit : c.isDigit = false) (hpoint : c ≠ '.') :
    takeFraction? (fractionChars fraction ++ c :: rest) =
      some (fraction.map Text.charOfDigit, c :: rest) := by
  cases fraction with
  | nil =>
    show takeFraction? (c :: rest) = _
    rw [takeFraction?]
    · rfl
    · intro _ h
      exact hpoint (List.cons.inj h).1
  | cons digit more =>
    have hdigits : ∀ d ∈ (digit :: more).map Text.charOfDigit, d.isDigit = true := by
      intro d hd
      obtain ⟨value, -, rfl⟩ := List.mem_map.1 hd
      exact Text.isDigit_charOfDigit value
    have hstop : ∀ d, (c :: rest).head? = some d → d.isDigit = false :=
      isDigit_head?_fractionChars [] hdigit
    show takeFraction? ('.' :: ((digit :: more).map Text.charOfDigit ++ c :: rest)) = _
    rw [takeFraction?, Text.takeDigits_append hdigits hstop]
    rfl

/-- A number is its sign, its digits, and what the scanners of a fraction and of
an exponent take after them. -/
theorem takeNumber?_digits {n : Nat} {after fraction exponent rest : List Char}
    {power : Option Int} (negative : Bool)
    (hafter : ∀ c, after.head? = some c → c.isDigit = false)
    (hfraction : takeFraction? after = some (fraction, exponent))
    (hpower : takePower? exponent = some (power, rest)) :
    takeNumber? ((if negative then ['-'] else []) ++ (Text.digits n ++ after)) =
      some (numeral negative (Text.digits n) fraction power, rest) := by
  have htake := Text.takeDigits_append (Text.isDigit_of_mem_digits (n := n)) hafter
  obtain ⟨c, more, hdigits, -⟩ := Text.exists_digits_eq_cons n
  have hminus : c ≠ '-' := by
    have hc : c.isDigit = true := Text.isDigit_of_mem_digits c (hdigits ▸ List.mem_cons_self)
    exact (Text.ne_sign_of_isDigit hc).1
  unfold takeNumber?
  split
  rename_i sign unsigned hread
  obtain ⟨rfl, rfl⟩ : negative = sign ∧ Text.digits n ++ after = unsigned := by
    cases negative with
    | true => exact Prod.mk.inj hread
    | false =>
      rw [hdigits] at hread ⊢
      split at hread
      · rename_i hcons
        exact absurd (List.cons.inj hcons).1 hminus
      · exact Prod.mk.inj hread
  rw [htake]
  split
  · rename_i hnone
    rw [hdigits] at hnone
    cases hnone
  · rename_i hzero
    exact absurd (Prod.mk.inj hzero).1 Text.digits_ne_zero_cons
  · rename_i hwhole
    obtain ⟨rfl, rfl⟩ := Prod.mk.inj hwhole
    rw [hfraction]
    simp only [hpower]

/-- A written number is read back. -/
theorem takeNumber?_numeralChars (value : Numeral) {rest : List Char} (hrest : EndsNumber rest) :
    takeNumber? (numeralChars value ++ rest) = some (value, rest) := by
  have hdigit : ∀ c, rest.head? = some c → c.isDigit = false := fun c hc => (hrest c hc).1
  cases value with
  | integer negative magnitude =>
    have hread := takeNumber?_digits (n := magnitude) negative hdigit
      (takeFraction?_of_endsNumber hrest) (takePower?_of_endsNumber hrest)
    have hvalue : numeral negative (Text.digits magnitude) [] none = .integer negative magnitude :=
      congrArg (Numeral.integer negative) (Text.natOfDigits_digits magnitude)
    rw [numeralChars, List.append_assoc, hread, hvalue]
  | decimal negative whole fraction power =>
    have hfraction : takeFraction? (fractionChars fraction ++
        'e' :: (Text.integerChars power ++ rest)) =
          some (fraction.map Text.charOfDigit, 'e' :: (Text.integerChars power ++ rest)) :=
      takeFraction?_fractionChars fraction (by decide) (by decide)
    have hpower : takePower? ('e' :: (Text.integerChars power ++ rest)) =
        some (some power, rest) := by
      rw [takePower?, if_pos (.inl rfl), Text.takeExponent?_integerChars power hdigit]
    have hread := takeNumber?_digits (n := whole) negative
      (isDigit_head?_fractionChars fraction (by decide)) hfraction hpower
    have hvalue : numeral negative (Text.digits whole) (fraction.map Text.charOfDigit)
        (some power) = .decimal negative whole fraction power := by
      simp [numeral, Text.natOfDigits_digits, Function.comp_def, Text.digitOfChar_charOfDigit]
    rw [numeralChars, List.append_assoc, List.append_assoc, List.append_assoc, List.cons_append,
      hread, hvalue]

end RawJson

end DocGate
