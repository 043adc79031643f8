import DocGate.Definition.Basic
import DocGate.Error
import DocGate.Json.Basic
import DocGate.Json.Reader
import DocGate.Json.Record

/-!
# Reading definitions

A definition is a record of records.  The first argument of the functions here
says how many arrays and objects may still be nested; a definition may nest as
many as a JSON value (`Json.maxDepth`).  What stands under names that a record does
not know is not counted.
-/

namespace DocGate

namespace FieldKind

/-- The kinds by their names. -/
def choices : Assoc FieldKind :=
  all.map fun kind => (kind.name, kind)

end FieldKind

mutual

/-- A field. -/
def FieldDefinition.ofRaw? : Nat → RawJson → Option FieldDefinition
  | 0, _ => none
  | depth + 1, raw => do
    let given ← raw.record?
      ["name", "type", "required", "nullable", "description", "schema", "items"]
    let name ← RawJson.orElse? "" RawJson.text? (given.get? "name")
    let kind ← RawJson.required? (RawJson.choice? FieldKind.choices depth) (given.get? "type")
    let required ← RawJson.orElse? false RawJson.bool? (given.get? "required")
    let nullable ← RawJson.orElse? false RawJson.bool? (given.get? "nullable")
    let description ← RawJson.optional? RawJson.text? (given.get? "description")
    let schema ← RawJson.optional? (fun value => NestedFields.ofRaw? depth value)
      (given.get? "schema")
    let items ← RawJson.optional? (fun value => FieldDefinition.ofRaw? depth value)
      (given.get? "items")
    pure { name, kind, required, nullable, description, schema, items }

/-- What a `RawObject` field says about its content. -/
def NestedFields.ofRaw? : Nat → RawJson → Option (NestedFields FieldDefinition)
  | 0, _ => none
  | depth + 1, raw => do
    let given ← raw.record? ["properties", "additionalProperties"]
    let properties ← RawJson.optional? (fun value => FieldDefinition.listOfRaw? depth value)
      (given.get? "properties")
    let additionalProperties ← RawJson.orElse? true RawJson.bool?
      (given.get? "additionalProperties")
    pure { properties, additionalProperties }

/-- A list of fields. -/
def FieldDefinition.listOfRaw? : Nat → RawJson → Option (List FieldDefinition)
  | depth + 1, .array items => items.mapM fun item => FieldDefinition.ofRaw? depth item
  | _, _ => none

end

/-- A field of an index. -/
def IndexField.ofRaw? : Nat → RawJson → Option IndexField
  | 0, _ => none
  | _ + 1, raw => do
    let given ← raw.record? ["name", "order"]
    let name ← RawJson.required? RawJson.text? (given.get? "name")
    let order ← RawJson.optional? RawJson.int32? (given.get? "order")
    pure { name, order }

/-- An index. -/
def IndexDefinition.ofRaw? : Nat → RawJson → Option IndexDefinition
  | 0, _ => none
  | depth + 1, raw => do
    let given ← raw.record? ["name", "type", "unique", "fields"]
    let name ← RawJson.required? RawJson.text? (given.get? "name")
    let kind ← RawJson.required?
      (RawJson.choice? (IndexKind.all.map fun kind => (kind.name, kind)) depth) (given.get? "type")
    let unique ← RawJson.orElse? false RawJson.bool? (given.get? "unique")
    let fields ← RawJson.orElse? [] (RawJson.list? IndexField.ofRaw? depth) (given.get? "fields")
    pure { name, kind, unique, fields }

/-- A collection definition. -/
def CollectionDefinition.ofRaw? : Nat → RawJson → Option CollectionDefinition
  | 0, _ => none
  | depth + 1, raw => do
    let given ← raw.record? ["name", "endpointBasePath", "defaultState", "fields", "indexes"]
    let name ← RawJson.required? RawJson.text? (given.get? "name")
    let endpointBasePath ← RawJson.required? RawJson.text? (given.get? "endpointBasePath")
    let defaultState ← RawJson.orElse? .draft
      (RawJson.choice? (DocumentState.all.map fun state => (state.text, state)) depth)
      (given.get? "defaultState")
    let fields ← RawJson.required? (FieldDefinition.listOfRaw? depth) (given.get? "fields")
    let indexes ← RawJson.orElse? [] (RawJson.list? IndexDefinition.ofRaw? depth)
      (given.get? "indexes")
    pure { name, endpointBasePath, defaultState, fields, indexes }

/-- The definition written in a text. -/
def CollectionDefinition.read (text : String) : Except DefinitionFault CollectionDefinition :=
  match (RawJson.read? text).bind (CollectionDefinition.ofRaw? Json.maxDepth) with
  | some definition => .ok definition
  | none => .error .malformed

/-- The list of fields written in a text. -/
def FieldDefinition.readList (text : String) : Except Failure (List FieldDefinition) :=
  match (RawJson.read? text).bind (FieldDefinition.listOfRaw? Json.maxDepth) with
  | some fields => .ok fields
  | none => .error .malformedFields

end DocGate
