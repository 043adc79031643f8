import DocGate.Definition.Basic
import DocGate.Json.Printer

/-!
# Writing definitions

The fields of a record are written in the order of their declaration.  An
absent description, content, element description or direction is left out;
everything else is written, also where it has its default.
-/

namespace DocGate

namespace RawJson

/-- A member that is written only if there is a value. -/
def optionalMember (name : String) (value : Option RawJson) : List (String × RawJson) :=
  match value with
  | some raw => [(name, raw)]
  | none => []

end RawJson

mutual

/-- The JSON of a field. -/
def FieldDefinition.toRaw : FieldDefinition → RawJson
  | { name, kind, required, nullable, description, schema, items } =>
    RawJson.ofMembers (
      [("name", RawJson.ofText name), ("type", RawJson.ofText kind.name),
        ("required", .bool required), ("nullable", .bool nullable)] ++
      RawJson.optionalMember "description" (description.map RawJson.ofText) ++
      RawJson.optionalMember "schema" (FieldDefinition.schemaToRaw schema) ++
      RawJson.optionalMember "items" (FieldDefinition.itemsToRaw items))
termination_by structural field => field

/-- The JSON of what a field says about its content. -/
def FieldDefinition.schemaToRaw : Option (NestedFields FieldDefinition) → Option RawJson
  | none => none
  | some ⟨none, additional⟩ =>
    some (RawJson.ofMembers [("additionalProperties", .bool additional)])
  | some ⟨some properties, additional⟩ =>
    some (RawJson.ofMembers [("properties", .array (FieldDefinition.propertiesToRaw properties)),
      ("additionalProperties", .bool additional)])
termination_by structural schema => schema

/-- The JSON of what a field says about its elements. -/
def FieldDefinition.itemsToRaw : Option FieldDefinition → Option RawJson
  | none => none
  | some item => some item.toRaw
termination_by structural items => items

/-- The JSON of the fields of a list. -/
def FieldDefinition.propertiesToRaw : List FieldDefinition → List RawJson
  | [] => []
  | field :: rest => field.toRaw :: FieldDefinition.propertiesToRaw rest
termination_by structural fields => fields

end

/-- The JSON of a list of fields. -/
def FieldDefinition.listToRaw (fields : List FieldDefinition) : RawJson :=
  .array (FieldDefinition.propertiesToRaw fields)

/-- The JSON of a field of an index. -/
def IndexField.toRaw (field : IndexField) : RawJson :=
  RawJson.ofMembers (("name", RawJson.ofText field.name) ::
    RawJson.optionalMember "order" (field.order.map fun order => RawJson.ofInt order.toInt))

/-- The JSON of an index. -/
def IndexDefinition.toRaw (index : IndexDefinition) : RawJson :=
  RawJson.ofMembers [("name", RawJson.ofText index.name), ("type", RawJson.ofText index.kind.name),
    ("unique", .bool index.unique), ("fields", .array (index.fields.map IndexField.toRaw))]

/-- The JSON of a collection definition. -/
def CollectionDefinition.toRaw (definition : CollectionDefinition) : RawJson :=
  RawJson.ofMembers [("name", RawJson.ofText definition.name),
    ("endpointBasePath", RawJson.ofText definition.endpointBasePath),
    ("defaultState", RawJson.ofText definition.defaultState.text),
    ("fields", FieldDefinition.listToRaw definition.fields),
    ("indexes", .array (definition.indexes.map IndexDefinition.toRaw))]

end DocGate
