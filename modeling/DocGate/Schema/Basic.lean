import DocGate.Assoc

/-!
# Schema trees

A schema tree describes the documents of a collection field by field, in the
terms of JSON Schema: texts with a format or a pattern, numbers, truth values,
arrays with bounds, objects with properties.

The nodes whose values need a cast of their own on the way out, identifiers
and points, are annotated with a `CastTarget`, and the tree lists all of them
with their places.
-/

namespace DocGate

/-- A step into a value. -/
inductive PathStep
  /-- To a property of an object. -/
  | field (name : String)
  /-- To every element of an array. -/
  | items
  deriving DecidableEq, Repr

/-- A place in the documents of a collection, from the outside in. -/
abbrev FieldPath := List PathStep

namespace FieldPath

/-- The text of the steps after the first. -/
def innerText : FieldPath → String
  | [] => ""
  | .field name :: rest => "." ++ name ++ innerText rest
  | .items :: rest => "[]" ++ innerText rest

/-- The text of a path: names joined by dots, `[]` for every element. -/
def text : FieldPath → String
  | .field name :: rest => name ++ innerText rest
  | path => innerText path

/-- The text of a path in a message; the root has a name of its own. -/
def shownText (path : FieldPath) : String :=
  if path.isEmpty then "<root>" else path.text

/-- The name of the field of the document that a path starts from. -/
def root? : FieldPath → Option String
  | .field name :: _ => some name
  | _ => none

end FieldPath

/-- The kinds of value with a cast of their own. -/
inductive CastKind
  | objectId
  | geoPoint
  deriving DecidableEq, Repr

/-- The name of a kind of cast in a rendered schema. -/
def CastKind.name : CastKind → String
  | objectId => "ObjectId"
  | geoPoint => "GeoPoint"

/-- A place whose values need a cast of their own. -/
structure CastTarget where
  kind : CastKind
  path : FieldPath
  deriving DecidableEq, Repr

/-- A constraint on the form of a text. -/
inductive TextFormat
  | dateTime
  deriving DecidableEq, Repr

/-- What a node says beside its type. -/
structure NodeNotes where
  nullable : Bool := false
  description : Option String := none
  cast : Option CastTarget := none
  deriving DecidableEq

/-- A node of a schema tree. -/
inductive SchemaNode
  | text (format : Option TextFormat) (pattern : Option String) (notes : NodeNotes)
  | number (notes : NodeNotes)
  | boolean (notes : NodeNotes)
  | array (items : SchemaNode) (minItems maxItems : Option Nat) (notes : NodeNotes)
  | object (properties : List (String × SchemaNode)) (required : List String)
      (additionalProperties : Bool) (notes : NodeNotes)

/-- What a node says beside its type. -/
def SchemaNode.notes : SchemaNode → NodeNotes
  | text _ _ notes => notes
  | number notes => notes
  | boolean notes => notes
  | array _ _ _ notes => notes
  | object _ _ _ notes => notes

/-- The schema of an object: its properties in order, the names of those that
are required, and whether others are tolerated. -/
structure ObjectSchema where
  properties : Assoc SchemaNode
  required : List String
  additionalProperties : Bool

/-- The schema of the documents of a collection, with the places of all nodes
that have a cast of their own, in the order of the tree. -/
structure SchemaTree where
  root : ObjectSchema
  castTargets : List CastTarget

namespace SchemaTree

/-- The node of a field of the document. -/
def property? (tree : SchemaTree) (name : String) : Option SchemaNode :=
  tree.root.properties.get? name

/-- The names of the fields of the document, in order. -/
def fieldNames (tree : SchemaTree) : List String :=
  tree.root.properties.keys

end SchemaTree

end DocGate
