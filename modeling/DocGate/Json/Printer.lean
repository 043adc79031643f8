import DocGate.Json.Raw
import DocGate.Text.Hex

/-!
# Writing JSON texts

`RawJson.render` writes a tree without white space.  In strings only the
quote, the backslash, the characters below the space and halves of surrogate
pairs are escaped: with a letter where there is one, else with four lower-case
hexadecimal digits.
-/

namespace DocGate

namespace RawJson

/-- An escape with four hexadecimal digits. -/
def codeEscape (code : Nat) : List Char :=
  '\\' :: 'u' :: Text.hexChars 4 code

/-- A character as it stands in a string literal. -/
def charChars (c : Char) : List Char :=
  if c = '"' then ['\\', '"']
  else if c = '\\' then ['\\', '\\']
  else if c = '\x08' then ['\\', 'b']
  else if c = '\x0c' then ['\\', 'f']
  else if c = '\n' then ['\\', 'n']
  else if c = '\r' then ['\\', 'r']
  else if c = '\t' then ['\\', 't']
  else if c.toNat < 0x20 then codeEscape c.toNat
  else [c]

/-- A piece as it stands in a string literal. -/
def pieceChars : StringPiece → List Char
  | .char c => charChars c
  | .surrogate offset => codeEscape (0xD800 + offset.val)

/-- A string literal. -/
def stringChars (pieces : List StringPiece) : List Char :=
  '"' :: pieces.flatMap pieceChars ++ ['"']

/-- The point and the digits of a fraction, if there are any. -/
def fractionChars (fraction : List (Fin 10)) : List Char :=
  if fraction.isEmpty then [] else '.' :: fraction.map Text.charOfDigit

/-- A number literal; one that is no integer is written with an exponent. -/
def numeralChars : Numeral → List Char
  | .integer negative magnitude =>
    (if negative then ['-'] else []) ++ Text.digits magnitude
  | .decimal negative whole fraction power =>
    (if negative then ['-'] else []) ++ Text.digits whole ++ fractionChars fraction ++
      'e' :: Text.integerChars power

mutual

/-- The text of a tree. -/
def chars : RawJson → List Char
  | .null => ['n', 'u', 'l', 'l']
  | .bool true => ['t', 'r', 'u', 'e']
  | .bool false => ['f', 'a', 'l', 's', 'e']
  | .number value => numeralChars value
  | .string pieces => stringChars pieces
  | .array items => '[' :: itemChars items ++ [']']
  | .object members => '{' :: memberChars members ++ ['}']

/-- The items of an array with commas between them. -/
def itemChars : List RawJson → List Char
  | [] => []
  | [item] => item.chars
  | item :: second :: rest => item.chars ++ ',' :: itemChars (second :: rest)

/-- The members of an object with commas between them. -/
def memberChars : List (List StringPiece × RawJson) → List Char
  | [] => []
  | [(key, value)] => stringChars key ++ ':' :: value.chars
  | (key, value) :: second :: rest =>
    stringChars key ++ ':' :: value.chars ++ ',' :: memberChars (second :: rest)

end

/-- The text of a tree. -/
def render (value : RawJson) : String :=
  String.ofList value.chars

end RawJson

end DocGate
