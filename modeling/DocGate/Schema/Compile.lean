import DocGate.Definition.Bookkeeping
import DocGate.Schema.Basic

/-!
# From field definitions to schemas

`SchemaTree.ofFields` compiles a list of fields.  Each kind of field has one
kind of node; an object has its properties in the order of their declaration.
The cast targets are collected on the way, each with the path of steps by
which its node is reached.

A list of fields is refused where a name is empty or occurs twice among its
siblings, a `RawObject` lists no fields or an `Array` does not describe its
elements.  Of several faults the first in the order of the list counts.
-/

namespace DocGate

/-- The form of an identifier's text. -/
def SchemaNode.objectIdPattern : String := "^[a-fA-F\\d]\x7b24\x7d$"

/-- The compiled fields of one object. -/
structure CompiledFields where
  properties : Assoc SchemaNode := []
  required : List String := []
  castTargets : List CastTarget := []

namespace FieldDefinition

mutual

/-- The node for a field that is reached by `path`, and the cast targets in it. -/
def compile (path : FieldPath) :
    FieldDefinition → Except DefinitionFault (SchemaNode × List CastTarget)
  | { kind, nullable, description, schema, items, .. } =>
    let notes : NodeNotes := { nullable, description }
    match kind with
    | .string => .ok (.text none none notes, [])
    | .number => .ok (.number notes, [])
    | .boolean => .ok (.boolean notes, [])
    | .date => .ok (.text (some .dateTime) none notes, [])
    | .objectId =>
      let target : CastTarget := ⟨.objectId, path⟩
      .ok (.text none (some SchemaNode.objectIdPattern) { notes with cast := some target }, [target])
    | .geoPoint =>
      let target : CastTarget := ⟨.geoPoint, path⟩
      .ok (.array (.number {}) (some 2) (some 3) { notes with cast := some target }, [target])
    | .rawObject => compileContent path notes schema
    | .array => compileElements path notes items
termination_by structural field => field

/-- The node for the content of an object that is reached by `path`. -/
def compileContent (path : FieldPath) (notes : NodeNotes) :
    Option (NestedFields FieldDefinition) →
      Except DefinitionFault (SchemaNode × List CastTarget)
  | some ⟨some fields, additional⟩ =>
    match compileList path [] fields with
    | .ok compiled =>
      .ok (.object compiled.properties compiled.required additional notes, compiled.castTargets)
    | .error fault => .error fault
  | some ⟨none, _⟩ => .error (.missingProperties path.shownText)
  | none => .error (.missingProperties path.shownText)
termination_by structural content => content

/-- The node for an array that is reached by `path`. -/
def compileElements (path : FieldPath) (notes : NodeNotes) :
    Option FieldDefinition → Except DefinitionFault (SchemaNode × List CastTarget)
  | some item =>
    match compile (path ++ [.items]) item with
    | .ok (node, targets) => .ok (.array node none none notes, targets)
    | .error fault => .error fault
  | none => .error (.missingItems path.shownText)
termination_by structural items => items

/-- The fields of the object at `parent`, where the names `seen` have been
declared before. -/
def compileList (parent : FieldPath) (seen : List String) :
    List FieldDefinition → Except DefinitionFault CompiledFields
  | [] => .ok {}
  | field :: rest =>
    if field.name.isEmpty then .error (.unnamedField parent.shownText)
    else if seen.contains field.name then
      .error (.repeatedField field.name parent.shownText)
    else
      match compile (parent ++ [.field field.name]) field with
      | .error fault => .error fault
      | .ok (node, targets) =>
        match compileList parent (field.name :: seen) rest with
        | .error fault => .error fault
        | .ok compiled =>
          .ok {
            properties := (field.name, node) :: compiled.properties
            required :=
              if field.required then field.name :: compiled.required else compiled.required
            castTargets := targets ++ compiled.castTargets }
termination_by structural fields => fields

end

end FieldDefinition

namespace SchemaTree

/-- The schema for a list of fields. -/
def ofFields (fields : List FieldDefinition) : Except DefinitionFault SchemaTree :=
  match FieldDefinition.compileList [] [] fields with
  | .ok compiled => .ok ⟨⟨compiled.properties, compiled.required, true⟩, compiled.castTargets⟩
  | .error fault => .error fault

/-- The schema for the documents of a collection, bookkeeping fields included. -/
def ofDefinition (definition : CollectionDefinition) : Except DefinitionFault SchemaTree :=
  match definition.allFields with
  | .error fault => .error fault
  | .ok fields =>
    match ofFields fields with
    | .ok tree => .ok tree
    | .error fault => .error (.inCollection definition.name fault)

end SchemaTree

end DocGate
