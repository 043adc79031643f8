import DocGate.Numeric.Decimal

/-!
# Patterns

The patterns that fix the length of a text and the class of all its characters,
such as `^[a-z\d]{4}$`.  A class lists letters and digits, ranges of them, and `\d`
for the decimal digits.  Other patterns are not read.
-/

namespace DocGate

/-- A pattern for the texts of one length with all characters in some ranges. -/
structure Pattern where
  ranges : List (Char × Char)
  count : Nat
  deriving DecidableEq, Repr

namespace Pattern

/-- The ranges of a class up to the bracket that closes it, and the rest. -/
def takeRanges? : List Char → Option (List (Char × Char) × List Char)
  | ']' :: rest => some ([], rest)
  | '\\' :: 'd' :: rest =>
    (takeRanges? rest).map fun (ranges, rest) => (('0', '9') :: ranges, rest)
  | first :: '-' :: last :: rest =>
    if first.isAlphanum && last.isAlphanum then
      (takeRanges? rest).map fun (ranges, rest) => ((first, last) :: ranges, rest)
    else none
  | c :: rest =>
    if c.isAlphanum then (takeRanges? rest).map fun (ranges, rest) => ((c, c) :: ranges, rest)
    else none
  | [] => none

/-- The count in braces and the mark for the end of the text. -/
def readCount? : List Char → Option Nat
  | '{' :: cs =>
    match Text.takeDigits cs with
    | ([], _) => none
    | (ds, ['}', '$']) => some (Text.natOfDigits ds)
    | _ => none
  | _ => none

/-- The pattern that a text spells. -/
def read? (text : String) : Option Pattern :=
  match text.toList with
  | '^' :: '[' :: cs =>
    match takeRanges? cs with
    | some (ranges, rest) => (readCount? rest).map fun count => ⟨ranges, count⟩
    | none => none
  | _ => none

/-- Whether a character lies in one of the ranges of a pattern. -/
def allows (pattern : Pattern) (c : Char) : Bool :=
  pattern.ranges.any fun (first, last) => first ≤ c && c ≤ last

/-- Whether a text has the form that a pattern describes. -/
def accepts (pattern : Pattern) (text : String) : Bool :=
  text.toList.length = pattern.count && text.toList.all pattern.allows

example : read? "^[a-z_]\x7b4\x7d$" = none := by decide +kernel

end Pattern

end DocGate
