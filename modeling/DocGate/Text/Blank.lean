/-!
# Blank characters

What counts as blank around a name in a comma-separated list, in a blank
request parameter and around a number written as text: the Unicode white
space characters.  The zero width space and the byte order mark are not among
them.
-/

namespace DocGate

namespace Text

/-- Whether `c` is a Unicode white space character. -/
def isBlank (c : Char) : Bool :=
  let code := c.toNat
  (9 ≤ code && code ≤ 13) || code == 0x20 || code == 0x85 || code == 0xA0 || code == 0x1680 ||
    (0x2000 ≤ code && code ≤ 0x200A) || code == 0x2028 || code == 0x2029 || code == 0x202F ||
    code == 0x205F || code == 0x3000

/-- Drops the blanks at both ends. -/
def trimChars (cs : List Char) : List Char :=
  ((cs.dropWhile isBlank).reverse.dropWhile isBlank).reverse

/-- Whether `text` holds blanks only. -/
def isAllBlank (text : String) : Bool :=
  text.toList.all isBlank

/-- A parameter, if there is one and it is not blank. -/
def unlessBlank? (parameter : Option String) : Option String :=
  parameter.filter fun text => !isAllBlank text

/-- The standard library's white space is blank. -/
theorem isBlank_of_isWhitespace {c : Char} (h : c.isWhitespace = true) : isBlank c = true := by
  simp only [Char.isWhitespace, Bool.or_eq_true, decide_eq_true_eq] at h
  rcases h with ((h | h) | h) | h <;> subst h <;> decide

/-- A text of blanks trims to nothing, and no other text does. -/
theorem trimChars_eq_nil_iff (cs : List Char) : trimChars cs = [] ↔ cs.all isBlank = true := by
  have key : ∀ l : List Char, l.dropWhile isBlank = [] ↔ l.all isBlank = true := by
    intro l
    induction l with
    | nil => simp
    | cons c rest ih => by_cases h : isBlank c = true <;> simp [h, ih]
  rw [trimChars, List.reverse_eq_nil_iff, key, List.all_reverse, ← key]
  constructor
  · intro h
    rw [← key]
    by_cases hd : cs.dropWhile isBlank = []
    · exact hd
    · have hhead := List.head_dropWhile_not isBlank hd
      rw [key, List.all_eq_true] at h
      have := h _ (List.head_mem hd)
      simp [hhead] at this
  · intro h
    rw [← key] at h
    simp [h]

end Text

end DocGate
