import DocGate.Numeric.Decimal

/-!
# JSON as written

`RawJson` is the tree of a JSON text with nothing decided yet: object members
keep their order and their repetitions, numbers keep their sign and their
digits, and a string keeps an escape for half of a surrogate pair, which is no
character.

The same text is understood in two ways from here: as a value of any shape
(`Json.ofRaw?`), and as the fields of a collection definition.  Both refuse
what they cannot represent; a definition does so only in the parts it uses.
-/

namespace DocGate

/-- A piece of a string literal: a character, or an escape for one half of a
surrogate pair, counted from the first surrogate. -/
inductive StringPiece
  | char (c : Char)
  | surrogate (offset : Fin 2048)
  deriving DecidableEq, Repr

/-- A number literal.  One without fraction and exponent is an integer, and
`-0` keeps its sign.  Any other has an integer part, the digits of its fraction
and an exponent, which is 0 where none is written. -/
inductive Numeral
  | integer (negative : Bool) (magnitude : Nat)
  | decimal (negative : Bool) (whole : Nat) (fraction : List (Fin 10)) (power : Int)
  deriving DecidableEq, Repr

/-- The tree of a JSON text. -/
inductive RawJson
  | null
  | bool (value : Bool)
  | number (value : Numeral)
  | string (pieces : List StringPiece)
  | array (items : List RawJson)
  | object (members : List (List StringPiece × RawJson))

namespace StringPiece

/-- The character of a surrogate pair, the halves counted from the first
surrogate; only a leading half before a trailing one makes a pair. -/
def pair? (leading trailing : Fin 2048) : Option Char :=
  if leading.val < 1024 ∧ 1024 ≤ trailing.val then
    some (Char.ofNat (0x10000 + 1024 * leading.val + (trailing.val - 1024)))
  else none

/-- The text of a string literal, if it is one: all surrogates are in pairs. -/
def chars? : List StringPiece → Option (List Char)
  | [] => some []
  | .char c :: rest => (chars? rest).map (c :: ·)
  | .surrogate leading :: .surrogate trailing :: rest =>
    match pair? leading trailing with
    | some c => (chars? rest).map (c :: ·)
    | none => none
  | [.surrogate _] => none
  | .surrogate _ :: .char _ :: _ => none

/-- The text of a string literal, if it is one. -/
def text? (pieces : List StringPiece) : Option String :=
  (chars? pieces).map String.ofList

/-- The literal of a text. -/
def ofText (text : String) : List StringPiece :=
  text.toList.map StringPiece.char

theorem chars?_map_char (cs : List Char) : chars? (cs.map StringPiece.char) = some cs := by
  induction cs with
  | nil => rfl
  | cons c cs ih => simp [chars?, ih]

theorem text?_ofText (text : String) : text? (ofText text) = some text := by
  simp [text?, ofText, chars?_map_char]

example : chars? [.surrogate 0x3D, .surrogate 0x600] = some ['😀'] := by decide
example : chars? [.surrogate 0x600, .surrogate 0x3D] = none := by decide

end StringPiece

namespace RawJson

/-- The string literal of a text. -/
def ofText (text : String) : RawJson :=
  .string (StringPiece.ofText text)

/-- The number literal of an integer. -/
def ofInt (n : Int) : RawJson :=
  .number (.integer (n < 0) n.natAbs)

/-- The list of the string literals of some texts. -/
def ofTexts (texts : List String) : RawJson :=
  .array (texts.map ofText)

/-- The object with the given members. -/
def ofMembers (members : List (String × RawJson)) : RawJson :=
  .object (members.map fun member => (StringPiece.ofText member.1, member.2))

end RawJson

end DocGate
