import DocGate.Json.Raw
import DocGate.Text.Hex

/-!
# Reading JSON texts

`RawJson.read?` accepts the texts of RFC 8259 and nothing else: white space is
space, tab, line feed and carriage return; control characters in strings are
refused; nothing follows the value.

The scanners take something from the front of a list of characters and give
the rest.  Values nest without limit here; the limits belong to those who use
the tree.  The recursion is bounded by a count of steps, two for each
character, which `read?` computes from the text.
-/

namespace DocGate

namespace RawJson

/-- White space between the tokens of a JSON text. -/
def isSpace (c : Char) : Bool :=
  c == ' ' || c == '\t' || c == '\n' || c == '\r'

/-- The text after its leading white space. -/
def skipSpace (cs : List Char) : List Char :=
  cs.dropWhile isSpace

/-! ## Strings -/

/-- The character of an escape of one letter. -/
def escape? : Char → Option Char
  | '"' => some '"'
  | '\\' => some '\\'
  | '/' => some '/'
  | 'b' => some '\x08'
  | 'f' => some '\x0c'
  | 'n' => some '\n'
  | 'r' => some '\r'
  | 't' => some '\t'
  | _ => none

/-- The piece that an escape of four hexadecimal digits stands for. -/
def pieceOfCode (code : Nat) : StringPiece :=
  if h : 0xD800 ≤ code ∧ code < 0xE000 then .surrogate ⟨code - 0xD800, by omega⟩
  else .char (Char.ofNat code)

/-- The pieces of a string up to its closing quote, and the rest. -/
def takePieces? : List Char → Option (List StringPiece × List Char)
  | [] => none
  | '"' :: rest => some ([], rest)
  | '\\' :: 'u' :: a :: b :: c :: d :: rest =>
    match Text.natOfHex? [a, b, c, d], takePieces? rest with
    | some code, some (pieces, after) => some (pieceOfCode code :: pieces, after)
    | _, _ => none
  | '\\' :: letter :: rest =>
    match escape? letter, takePieces? rest with
    | some c, some (pieces, after) => some (.char c :: pieces, after)
    | _, _ => none
  | c :: rest =>
    if c = '\\' ∨ c.toNat < 0x20 then none
    else
      match takePieces? rest with
      | some (pieces, after) => some (.char c :: pieces, after)
      | none => none

/-! ## Numbers -/

/-- The fraction after a point: at least one digit. -/
def takeFraction? : List Char → Option (List Char × List Char)
  | '.' :: rest =>
    match Text.takeDigits rest with
    | ([], _) => none
    | (ds, after) => some (ds, after)
  | cs => some ([], cs)

/-- The exponent, if there is a mark for one. -/
def takePower? : List Char → Option (Option Int × List Char)
  | mark :: rest =>
    if mark = 'e' ∨ mark = 'E' then
      match Text.takeExponent? rest with
      | some (power, after) => some (some power, after)
      | none => none
    else some (none, mark :: rest)
  | [] => some (none, [])

/-- The number literal from its digits and its exponent. -/
def numeral (negative : Bool) (whole fraction : List Char) (power : Option Int) : Numeral :=
  if fraction.isEmpty && power.isNone then .integer negative (Text.natOfDigits whole)
  else .decimal negative (Text.natOfDigits whole) (fraction.map Text.digitOfChar) (power.getD 0)

/-- A number: digits without a superfluous zero, after an optional minus sign
and before an optional fraction and an optional exponent. -/
def takeNumber? (cs : List Char) : Option (Numeral × List Char) :=
  let (negative, unsigned) : Bool × List Char :=
    match cs with
    | '-' :: rest => (true, rest)
    | _ => (false, cs)
  match Text.takeDigits unsigned with
  | ([], _) => none
  | ('0' :: _ :: _, _) => none
  | (whole, afterWhole) =>
    match takeFraction? afterWhole with
    | none => none
    | some (fraction, afterFraction) =>
      match takePower? afterFraction with
      | none => none
      | some (power, after) => some (numeral negative whole fraction power, after)

/-! ## Values -/

mutual

/-- A value in at most `steps` steps, and the rest. -/
def takeValue? : Nat → List Char → Option (RawJson × List Char)
  | 0, _ => none
  | steps + 1, cs =>
    match skipSpace cs with
    | 'n' :: 'u' :: 'l' :: 'l' :: rest => some (.null, rest)
    | 't' :: 'r' :: 'u' :: 'e' :: rest => some (.bool true, rest)
    | 'f' :: 'a' :: 'l' :: 's' :: 'e' :: rest => some (.bool false, rest)
    | '"' :: rest =>
      match takePieces? rest with
      | some (pieces, after) => some (.string pieces, after)
      | none => none
    | '[' :: rest =>
      match skipSpace rest with
      | ']' :: after => some (.array [], after)
      | items =>
        match takeItems? steps items with
        | some (values, after) => some (.array values, after)
        | none => none
    | '{' :: rest =>
      match skipSpace rest with
      | '}' :: after => some (.object [], after)
      | members =>
        match takeMembers? steps members with
        | some (values, after) => some (.object values, after)
        | none => none
    | other =>
      match takeNumber? other with
      | some (value, after) => some (.number value, after)
      | none => none

/-- The items of an array up to its closing bracket, and the rest. -/
def takeItems? : Nat → List Char → Option (List RawJson × List Char)
  | 0, _ => none
  | steps + 1, cs =>
    match takeValue? steps cs with
    | none => none
    | some (item, rest) =>
      match skipSpace rest with
      | ']' :: after => some ([item], after)
      | ',' :: more =>
        match takeItems? steps more with
        | some (items, after) => some (item :: items, after)
        | none => none
      | _ => none

/-- The members of an object up to its closing brace, and the rest. -/
def takeMembers? : Nat → List Char → Option (List (List StringPiece × RawJson) × List Char)
  | 0, _ => none
  | steps + 1, cs =>
    match skipSpace cs with
    | '"' :: quoted =>
      match takePieces? quoted with
      | none => none
      | some (key, afterKey) =>
        match skipSpace afterKey with
        | ':' :: start =>
          match takeValue? steps start with
          | none => none
          | some (value, rest) =>
            match skipSpace rest with
            | '}' :: after => some ([(key, value)], after)
            | ',' :: more =>
              match takeMembers? steps more with
              | some (members, after) => some ((key, value) :: members, after)
              | none => none
            | _ => none
        | _ => none
    | _ => none

end

/-- The tree of a text that is one JSON value and white space. -/
def ofChars? (cs : List Char) : Option RawJson :=
  match takeValue? (2 * cs.length + 2) cs with
  | some (value, rest) => if (skipSpace rest).isEmpty then some value else none
  | none => none

/-- The tree of a JSON text. -/
def read? (text : String) : Option RawJson :=
  ofChars? text.toList

end RawJson

end DocGate
