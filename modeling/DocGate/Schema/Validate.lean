import DocGate.Bson.Basic
import DocGate.Json.Raw
import DocGate.Text.Pattern
import DocGate.Text.Timestamp

/-!
# Validation by JSON Schema

Whether a value satisfies a JSON Schema, for the keywords that rendered schemas
use.  Every member of a schema is a condition of its own, except that
`additionalProperties` is about the names that `properties` beside it leaves out.
A keyword is about values of one type and holds of all others.  Other keywords
hold of every value, as they do where they are unknown.

Values are those of a cast document.  A value of a type that JSON does not have
has no type here, so it satisfies only schemas that ask for none.
-/

namespace DocGate

namespace JsonSchema

/-- The keywords that are checked. -/
inductive Keyword
  | type
  | format
  | pattern
  | items
  | minItems
  | maxItems
  | properties
  | required
  | additionalProperties
  deriving DecidableEq, Repr

namespace Keyword

/-- The text of a keyword. -/
def text : Keyword → String
  | type => "type"
  | format => "format"
  | pattern => "pattern"
  | items => "items"
  | minItems => "minItems"
  | maxItems => "maxItems"
  | properties => "properties"
  | required => "required"
  | additionalProperties => "additionalProperties"

/-- All keywords. -/
def all : List Keyword :=
  [type, format, pattern, items, minItems, maxItems, properties, required, additionalProperties]

/-- The keyword with the given text. -/
def ofText? (text : String) : Option Keyword :=
  all.find? fun keyword => keyword.text = text

end Keyword

/-! ## The parts of a schema that are no schemas -/

/-- The text of a string literal. -/
def textOf? : RawJson → Option String
  | .string pieces => StringPiece.text? pieces
  | _ => none

/-- The texts of a list of string literals. -/
def textsOf? : RawJson → Option (List String)
  | .array items => items.mapM textOf?
  | _ => none

/-- The count that a number literal stands for. -/
def countOf? : RawJson → Option Nat
  | .number (.integer false count) => some count
  | _ => none

/-- Whether a value has the type with the given name. -/
def hasTypeName (value : Bson) (name : String) : Bool :=
  match value with
  | .null => name = "null"
  | .bool _ => name = "boolean"
  | .string _ => name = "string"
  | .int32 _ | .int64 _ => name = "number" || name = "integer"
  | .double d => d.isFinite && name = "number"
  | .array _ => name = "array"
  | .document _ => name = "object"
  | _ => false

/-- Whether a value has the type that a schema asks for, or one of several. -/
def hasType (expected : RawJson) (value : Bson) : Bool :=
  match textOf? expected with
  | some name => hasTypeName value name
  | none => (textsOf? expected).any fun names => names.any (hasTypeName value)

/-- The names of the members of an object. -/
def namesOf : RawJson → List String
  | .object members => members.filterMap fun member => StringPiece.text? member.1
  | _ => []

/-- The names that the properties of a schema have. -/
def declaredNames (members : List (List StringPiece × RawJson)) : List String :=
  members.flatMap fun member =>
    if StringPiece.text? member.1 = some Keyword.properties.text then namesOf member.2 else []

/-! ## Validation -/

/-- Whether one member of a schema holds of a value.  `within` says which values
satisfy its body, if that is a schema, and `properties` which documents satisfy
the schemas that it lists by name. -/
def memberHolds (declared : List String) (within : Bson → Bool) (properties : Document → Bool)
    (body : RawJson) : Keyword → Bson → Bool
  | .type, value => hasType body value
  | .format, .string text =>
    if textOf? body = some "date-time" then Text.isTimestamp text.toList else true
  | .pattern, .string text => ((textOf? body).bind Pattern.read?).any fun pattern =>
      pattern.accepts text
  | .items, .array items => items.all within
  | .minItems, .array items => (countOf? body).any fun count => count ≤ items.length
  | .maxItems, .array items => (countOf? body).any fun count => items.length ≤ count
  | .properties, .document entries => properties entries
  | .required, .document entries => (textsOf? body).any fun names =>
      names.all fun name => (Assoc.keys entries).contains name
  | .additionalProperties, .document entries =>
    entries.all fun entry => declared.contains entry.1 || within entry.2
  | _, _ => true

mutual

/-- Whether a value satisfies a schema. -/
def validates : RawJson → Bson → Bool
  | .bool accepts => fun _ => accepts
  | .object members => membersHold (declaredNames members) members
  | _ => fun _ => false

/-- Whether all members of a schema hold of a value. -/
def membersHold (declared : List String) :
    List (List StringPiece × RawJson) → Bson → Bool
  | [], _ => true
  | (key, body) :: rest, value =>
    (match (StringPiece.text? key).bind Keyword.ofText? with
      | some keyword => memberHolds declared (validates body) (propertiesHold body) body keyword value
      | none => true) && membersHold declared rest value

/-- Whether the entries of a document satisfy the schemas for their names. -/
def propertiesHold : RawJson → Document → Bool
  | .object properties => entriesHold properties
  | _ => fun _ => false

/-- Whether the entries of a document satisfy the schemas that are listed for
their names. -/
def entriesHold : List (List StringPiece × RawJson) → Document → Bool
  | [], _ => true
  | (name, schema) :: rest, entries =>
    (entries.all fun entry =>
      StringPiece.text? name ≠ some entry.1 || validates schema entry.2) &&
      entriesHold rest entries

end

/-- A schema for objects with a number `n` and nothing else. -/
def countSchema : RawJson :=
  RawJson.ofMembers [("type", RawJson.ofText "object"), ("required", RawJson.ofTexts ["n"]),
    ("properties", RawJson.ofMembers [("n", RawJson.ofMembers [("type", RawJson.ofText "number")])]),
    ("additionalProperties", .bool false)]

example : validates countSchema (.document [("n", .int32 1)]) = true := by decide +kernel
example : validates countSchema (.document [("n", .string "1")]) = false := by decide +kernel
example : validates countSchema (.document [("n", .int32 1), ("m", .null)]) = false := by
  decide +kernel
example : validates countSchema (.document []) = false := by decide +kernel

end JsonSchema

end DocGate
