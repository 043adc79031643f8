/-!
# Collection definitions

A collection definition is the static description of a resource: its name, the
path it is served under, the state its new documents start in, its fields and
its indexes.  Fields nest: a `RawObject` field lists the fields of its content,
an `Array` field describes its elements.

Nothing is checked here.  Whether a list of fields is well formed is decided
when it is compiled to a schema.
-/

namespace DocGate

/-- The declared type of a field. -/
inductive FieldKind
  | string
  | number
  | boolean
  | date
  | objectId
  | geoPoint
  | rawObject
  | array
  deriving DecidableEq, Repr

namespace FieldKind

/-- The name of a kind in a definition. -/
def name : FieldKind → String
  | string => "string"
  | number => "number"
  | boolean => "boolean"
  | date => "Date"
  | objectId => "ObjectId"
  | geoPoint => "GeoPoint"
  | rawObject => "RawObject"
  | array => "Array"

/-- All kinds. -/
def all : List FieldKind :=
  [string, number, boolean, date, objectId, geoPoint, rawObject, array]

end FieldKind

/-- What a `RawObject` field says about its content: the fields it lists, if it
lists any, and whether others are tolerated. -/
structure NestedFields (Field : Type) where
  properties : Option (List Field)
  additionalProperties : Bool

/-- A field of a collection, of a nested object, or the elements of an array. -/
structure FieldDefinition where
  name : String
  kind : FieldKind
  required : Bool := false
  nullable : Bool := false
  description : Option String := none
  schema : Option (NestedFields FieldDefinition) := none
  items : Option FieldDefinition := none

namespace FieldDefinition

/-- A `RawObject` field with the given content, which tolerates other fields. -/
def rawObject (name : String) (properties : List FieldDefinition) : FieldDefinition :=
  { name, kind := .rawObject, schema := some ⟨some properties, true⟩ }

/-- An `Array` field with elements like `item`. -/
def array (name : String) (item : FieldDefinition) : FieldDefinition :=
  { name, kind := .array, items := some item }

/-- The definition of an array's elements, which have no name. -/
def item (kind : FieldKind) : FieldDefinition :=
  { name := "", kind }

/-- The fields that a definition lists for its content. -/
def content (field : FieldDefinition) : List FieldDefinition :=
  match field.schema with
  | some ⟨some fields, _⟩ => fields
  | _ => []

/-- Whether the content of a field may have fields that are not listed. -/
def toleratesOthers (field : FieldDefinition) : Bool :=
  match field.schema with
  | some ⟨_, additional⟩ => additional
  | none => true

end FieldDefinition

/-- Where a document stands between publication and deletion. -/
inductive DocumentState
  | published
  | draft
  | trash
  | deleted
  deriving DecidableEq, Repr

namespace DocumentState

/-- The text that is stored for a state. -/
def text : DocumentState → String
  | published => "PUBLIC"
  | draft => "DRAFT"
  | trash => "TRASH"
  | deleted => "DELETED"

/-- All states. -/
def all : List DocumentState :=
  [published, draft, trash, deleted]

/-- The state with the given text. -/
def ofText? (text : String) : Option DocumentState :=
  all.find? fun state => state.text = text

theorem ofText?_text (state : DocumentState) : ofText? state.text = some state := by
  cases state <;> decide

end DocumentState

/-- The kinds of index.  Indexes are carried along; creating them is the
store's concern. -/
inductive IndexKind
  | normal
  | geo
  | hash
  | text
  deriving DecidableEq, Repr

namespace IndexKind

/-- The name of an index kind in a definition. -/
def name : IndexKind → String
  | normal => "normal"
  | geo => "geo"
  | hash => "hash"
  | text => "text"

/-- All index kinds. -/
def all : List IndexKind :=
  [normal, geo, hash, text]

end IndexKind

/-- A field of an index, with the direction of its order if it has one. -/
structure IndexField where
  name : String
  order : Option Int32 := none
  deriving DecidableEq

/-- An index of a collection. -/
structure IndexDefinition where
  name : String
  kind : IndexKind
  unique : Bool := false
  fields : List IndexField := []
  deriving DecidableEq

/-- The static description of a collection. -/
structure CollectionDefinition where
  name : String
  endpointBasePath : String
  defaultState : DocumentState := .draft
  fields : List FieldDefinition
  indexes : List IndexDefinition := []

end DocGate
