import DocGate.Json.Raw
import DocGate.Schema.Basic

/-!
# Schemas as JSON Schema

`SchemaNode.toRaw` writes a node as JSON Schema.  What belongs to the type
comes first, then the type itself, with `null` as the alternative where the
node is nullable, then the description, and last the cast annotation under a
keyword of its own.
-/

namespace DocGate

/-- The keyword for cast annotations. -/
def NodeNotes.castKeyword : String := "x-cast"

/-- The members that every node has: its type and its notes. -/
def NodeNotes.members (typeName : String) (notes : NodeNotes) : List (String × RawJson) :=
  [("type", if notes.nullable then RawJson.ofTexts [typeName, "null"] else RawJson.ofText typeName)] ++
    (match notes.description with
      | some description => [("description", RawJson.ofText description)]
      | none => []) ++
    (match notes.cast with
      | some target =>
        [(castKeyword, RawJson.ofMembers [("kind", RawJson.ofText target.kind.name),
          ("path", RawJson.ofText target.path.text)])]
      | none => [])

namespace SchemaNode

/-- The member for the form of a text. -/
def formatMember (format : Option TextFormat) : List (String × RawJson) :=
  match format with
  | some .dateTime => [("format", RawJson.ofText "date-time")]
  | none => []

/-- The member for the pattern of a text. -/
def patternMember (pattern : Option String) : List (String × RawJson) :=
  match pattern with
  | some regex => [("pattern", RawJson.ofText regex)]
  | none => []

/-- The member for a bound on the length of an array. -/
def boundMember (name : String) (bound : Option Nat) : List (String × RawJson) :=
  match bound with
  | some count => [(name, RawJson.ofInt count)]
  | none => []

/-- The members that describe an object whose properties are rendered. -/
def objectMembers (properties : List (String × RawJson)) (required : List String)
    (additionalProperties : Bool) : List (String × RawJson) :=
  [("properties", RawJson.ofMembers properties)] ++
    (if required.isEmpty then [] else [("required", RawJson.ofTexts required)]) ++
    [("additionalProperties", .bool additionalProperties)]

mutual

/-- A node as JSON Schema. -/
def toRaw : SchemaNode → RawJson
  | .text format pattern notes =>
    RawJson.ofMembers (formatMember format ++ patternMember pattern ++ notes.members "string")
  | .number notes => RawJson.ofMembers (notes.members "number")
  | .boolean notes => RawJson.ofMembers (notes.members "boolean")
  | .array items minItems maxItems notes =>
    RawJson.ofMembers (
      [("items", items.toRaw)] ++ boundMember "minItems" minItems ++
        boundMember "maxItems" maxItems ++ notes.members "array")
  | .object properties required additionalProperties notes =>
    RawJson.ofMembers (
      objectMembers (propertiesToRaw properties) required additionalProperties ++
        notes.members "object")

/-- The properties of an object as JSON Schema. -/
def propertiesToRaw : List (String × SchemaNode) → List (String × RawJson)
  | [] => []
  | (name, node) :: rest => (name, node.toRaw) :: propertiesToRaw rest

end

end SchemaNode

/-- A whole schema as JSON Schema. -/
def SchemaTree.toRaw (tree : SchemaTree) : RawJson :=
  RawJson.ofMembers (("type", RawJson.ofText "object") ::
    SchemaNode.objectMembers (SchemaNode.propertiesToRaw tree.root.properties) tree.root.required
      tree.root.additionalProperties)

end DocGate
