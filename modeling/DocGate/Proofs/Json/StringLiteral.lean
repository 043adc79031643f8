import Mathlib.Tactic.SplitIfs
import DocGate.Json.Printer
import DocGate.Json.Reader

/-!
# String literals read back

A string literal that was written is read back with nothing lost, whatever
pieces it holds: the scanner takes exactly the written pieces and stops
after the closing quote (`RawJson.takePieces?_flatMap_pieceChars`).
-/

namespace DocGate

namespace RawJson

/-- The four digits of an escape give the code that they were written for. -/
theorem takePieces?_codeEscape {code : Nat} (h : code < 0x10000) (tail : List Char) :
    takePieces? (codeEscape code ++ tail) =
      (takePieces? tail).map fun taken => (pieceOfCode code :: taken.1, taken.2) := by
  have hmod : code % 16 ^ 4 = code := Nat.mod_eq_of_lt h
  have hread : Text.natOfHex? (Text.hexChars 4 code) = some code := by
    rw [Text.natOfHex?, Text.natOfHexFrom?_hexChars, Nat.zero_mul, Nat.zero_add, hmod]
  simp only [Text.hexChars] at hread
  simp only [codeEscape, Text.hexChars, List.cons_append, List.nil_append, takePieces?, hread]
  cases takePieces? tail <;> rfl

/-- A letter after a backslash stands for its character. -/
theorem takePieces?_letterEscape {letter c : Char} (hletter : letter ≠ 'u')
    (h : escape? letter = some c) (tail : List Char) :
    takePieces? ('\\' :: letter :: tail) =
      (takePieces? tail).map fun taken => (.char c :: taken.1, taken.2) := by
  rw [takePieces?]
  · rw [h]
    cases takePieces? tail <;> rfl
  · intro _ _ _ _ _ hu _
    exact hletter hu

/-- A character that is written as it stands is read as it stands. -/
theorem takePieces?_plain {c : Char} (hquote : c ≠ '"') (hslash : c ≠ '\\')
    (hcontrol : ¬ c.toNat < 0x20) (tail : List Char) :
    takePieces? (c :: tail) =
      (takePieces? tail).map fun taken => (.char c :: taken.1, taken.2) := by
  rw [takePieces?]
  · rw [if_neg fun h => h.elim hslash hcontrol]
    cases takePieces? tail <;> rfl
  · exact hquote
  · intro _ _ _ _ _ hc _
    exact hslash hc
  · intro _ _ hc _
    exact hslash hc

/-- The code of a character is no half of a surrogate pair. -/
theorem pieceOfCode_toNat (c : Char) : pieceOfCode c.toNat = .char c := by
  have hvalid : c.toNat < 0xD800 ∨ 0xDFFF < c.toNat ∧ c.toNat < 0x110000 := c.valid
  rw [pieceOfCode, dif_neg (by omega), Char.ofNat_toNat]

theorem pieceOfCode_surrogate (offset : Fin 2048) :
    pieceOfCode (0xD800 + offset.val) = .surrogate offset := by
  have hoffset := offset.isLt
  have hrange : 0xD800 ≤ 0xD800 + offset.val ∧ 0xD800 + offset.val < 0xE000 := by omega
  rw [pieceOfCode, dif_pos hrange]
  exact congrArg StringPiece.surrogate (Fin.ext (Nat.add_sub_cancel_left _ _))

/-- A written character is read back. -/
theorem takePieces?_charChars (c : Char) (tail : List Char) :
    takePieces? (charChars c ++ tail) =
      (takePieces? tail).map fun taken => (.char c :: taken.1, taken.2) := by
  unfold charChars
  split_ifs with hquote hslash hback hfeed hline hreturn htab hcontrol
  · subst hquote
    exact takePieces?_letterEscape (by decide) rfl tail
  · subst hslash
    exact takePieces?_letterEscape (by decide) rfl tail
  · subst hback
    exact takePieces?_letterEscape (by decide) rfl tail
  · subst hfeed
    exact takePieces?_letterEscape (by decide) rfl tail
  · subst hline
    exact takePieces?_letterEscape (by decide) rfl tail
  · subst hreturn
    exact takePieces?_letterEscape (by decide) rfl tail
  · subst htab
    exact takePieces?_letterEscape (by decide) rfl tail
  · rw [takePieces?_codeEscape (by omega), pieceOfCode_toNat]
  · exact takePieces?_plain hquote hslash hcontrol tail

/-- A written piece is read back. -/
theorem takePieces?_pieceChars (piece : StringPiece) (tail : List Char) :
    takePieces? (pieceChars piece ++ tail) =
      (takePieces? tail).map fun taken => (piece :: taken.1, taken.2) := by
  cases piece with
  | char c => exact takePieces?_charChars c tail
  | surrogate offset =>
    have hoffset := offset.isLt
    rw [pieceChars, takePieces?_codeEscape (by omega), pieceOfCode_surrogate]

/-- The scanner takes the pieces of a written literal and stops after its
closing quote. -/
theorem takePieces?_flatMap_pieceChars (pieces : List StringPiece) (rest : List Char) :
    takePieces? (pieces.flatMap pieceChars ++ '"' :: rest) = some (pieces, rest) := by
  induction pieces with
  | nil => rfl
  | cons piece pieces ih =>
    rw [List.flatMap_cons, List.append_assoc, takePieces?_pieceChars, ih]
    rfl

/-- A literal in front of another text starts with a quote, and its closing quote
follows the last piece. -/
theorem stringChars_append (pieces : List StringPiece) (rest : List Char) :
    stringChars pieces ++ rest = '"' :: (pieces.flatMap pieceChars ++ '"' :: rest) := by
  simp [stringChars]

/-- A written string is read back as a value. -/
theorem takeValue?_stringChars (steps : Nat) (pieces : List StringPiece) (rest : List Char) :
    takeValue? (steps + 1) (stringChars pieces ++ rest) = some (.string pieces, rest) := by
  have hquote : ∀ cs, skipSpace ('"' :: cs) = '"' :: cs := fun _ => rfl
  rw [stringChars_append, takeValue?, hquote]
  simp only [takePieces?_flatMap_pieceChars]

end RawJson

end DocGate
