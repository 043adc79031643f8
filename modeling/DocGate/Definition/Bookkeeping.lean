import DocGate.Error

/-!
# Bookkeeping fields

Every collection carries six fields that the service itself maintains: the
identifier, who created and last updated the document and when, and its state.
A definition may declare them, in the kind that they have, to give them a place
and a description of its own; those that it omits come first, in the order of
`Bookkeeping.fields`, and are required.
-/

namespace DocGate

namespace Bookkeeping

/-- The name of the identifier. -/
def idField : String := "_id"

/-- The name of the creation date. -/
def createdAtField : String := "createdAt"

/-- The name of the date of the last update. -/
def updatedAtField : String := "updatedAt"

/-- The name of the document state. -/
def stateField : String := "__STATE__"

/-- The bookkeeping fields, in order. -/
def fields : List FieldDefinition := [
  { name := idField, kind := .objectId, required := true,
    description := some "Document identifier" },
  { name := "creatorId", kind := .string, required := true,
    description := some "Id of the user that created the document" },
  { name := "updaterId", kind := .string, required := true,
    description := some "Id of the user that last updated the document" },
  { name := createdAtField, kind := .date, required := true,
    description := some "Creation date" },
  { name := updatedAtField, kind := .date, required := true,
    description := some "Last update date" },
  { name := stateField, kind := .string, required := true,
    description := some "Soft-delete state of the document" }]

/-- The names of the bookkeeping fields. -/
def names : List String :=
  fields.map FieldDefinition.name

/-- Whether `name` is the name of a bookkeeping field. -/
def isReserved (name : String) : Bool :=
  names.contains name

/-- The kind that a bookkeeping field has. -/
def reservedKind? (name : String) : Option FieldKind :=
  (fields.find? fun field => field.name = name).map FieldDefinition.kind

end Bookkeeping

namespace CollectionDefinition

/-- The first declared field that has the name of a bookkeeping field and
another kind, as a fault. -/
def reservedFault? (definition : CollectionDefinition) : Option DefinitionFault :=
  definition.fields.findSome? fun field =>
    match Bookkeeping.reservedKind? field.name with
    | some kind =>
      if field.kind = kind then none
      else some (.reservedField definition.name field.name field.kind kind)
    | none => none

/-- The bookkeeping fields that a definition omits. -/
def omittedFields (definition : CollectionDefinition) : List FieldDefinition :=
  Bookkeeping.fields.filter fun field =>
    !(definition.fields.map FieldDefinition.name).contains field.name

/-- The fields of a collection: the bookkeeping fields that it omits and the
fields that it declares. -/
def allFields (definition : CollectionDefinition) :
    Except DefinitionFault (List FieldDefinition) :=
  match definition.reservedFault? with
  | some fault => .error fault
  | none => .ok (definition.omittedFields ++ definition.fields)

end CollectionDefinition

end DocGate
