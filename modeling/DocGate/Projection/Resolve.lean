import DocGate.Grammar.Fragment
import DocGate.Projection.Basic
import DocGate.Projection.Columns

/-!
# Resolving a caller's selection

A caller says which fields it wants by a comma-separated list or by a raw
projection, not by both, and access control says which columns it may read.
`Projection.resolve` combines them.

* Without a selection all fields that the caller may read are included.
* A list of fields is cut down to those that the caller may read.
* A raw projection must use allowed tokens only and must not exclude a column
  that the caller is restricted to.  Under a restriction its inclusions and its
  selections within fields are cut down to the readable columns and its
  exclusions are dropped; what is left must not be selections within fields
  only, which the store would answer with whole documents.

Whatever is left of a selection, the result is not empty: it falls back to the
identifier.
-/

namespace DocGate

/-- What a caller asks for, and the columns that it may read.  A blank text
counts as no text, but for one thing: two texts that are not empty may not come
together even if one is blank. -/
structure ProjectionRequest where
  fields : Option String := none
  columns : Option String := none
  raw : Option String := none

/-- Whether a field list and a raw projection come together, blank or not. -/
def ProjectionRequest.isAmbiguous (request : ProjectionRequest) : Bool :=
  request.fields.any (fun text => !text.isEmpty) && request.raw.any (fun text => !text.isEmpty)

namespace Projection

/-- The operators that select within the field that they are keyed by. -/
def selectionOperators : List String :=
  ["$slice", "$elemMatch"]

/-- Whether a value of a projection selects within the field that it is keyed
by: a selection operator, or a nested projection. -/
def selectsWithin : Bson → Bool
  | .document [] => true
  | .document ((key, _) :: _) => selectionOperators.contains key || !Text.startsWithDollar key
  | _ => false

/-- Whether the columns let an entry of a raw projection pass. -/
def permits (columns : Columns) (key : String) (value : Bson) : Bool :=
  match value with
  | .null => false
  | _ =>
    if columns.isUnrestricted then true
    else
      match marker? value with
      | some included => included && columns.contains (Text.pathRoot key)
      | none => !selectsWithin value || columns.contains (Text.pathRoot key)

/-- The first key that is a readable column and is excluded. -/
def excludedColumn? (columns : Columns) (entries : Document) : Option String :=
  (entries.find? fun entry => columns.contains entry.1 && marker? entry.2 == some false).map
    Prod.fst

/-- The fields that a raw projection may refer to. -/
def readable (fieldNames : List String) (columns : Columns) (name : String) : Bool :=
  if columns.isUnrestricted then fieldNames.contains name else columns.contains name

/-- The parts for a request without a selection. -/
def defaultParts (fieldNames : List String) (columns : Columns) : List ProjectionPart :=
  (fieldNames.filter columns.allows).map .field

/-- The parts for a list of fields. -/
def listParts (fields : String) (columns : Columns) : List ProjectionPart :=
  ((Text.listItems fields).filter columns.allows).map .field

/-- The entries of a raw projection that are left under the columns. -/
def permittedEntries (columns : Columns) (entries : Document) : Except RequestFault Document :=
  match excludedColumn? columns entries with
  | some column => .error (.exclusion column)
  | none =>
    let permitted := entries.filter fun entry => permits columns entry.1 entry.2
    if !permitted.isEmpty && !columns.isUnrestricted &&
        permitted.all fun entry => selectsWithin entry.2 then
      .error .onlySelectors
    else .ok permitted

/-- The parts for a raw projection. -/
def rawParts (fieldNames : List String) (columns : Columns) (raw : String) :
    Except RequestFault (List ProjectionPart) :=
  match FragmentKind.projection.toDocument (readable fieldNames columns) raw with
  | .error fault => .error fault
  | .ok entries =>
    match permittedEntries columns entries with
    | .error fault => .error fault
    | .ok permitted => .ok [.entries permitted]

/-- The parts for a request. -/
def requestedParts (fieldNames : List String) (request : ProjectionRequest) :
    Except RequestFault (List ProjectionPart) :=
  let columns := Columns.ofText request.columns
  if request.isAmbiguous then .error .twoSelections
  else
    match Text.unlessBlank? request.fields, Text.unlessBlank? request.raw with
    | some fields, _ => .ok (listParts fields columns)
    | none, some raw => rawParts fieldNames columns raw
    | none, none => .ok (defaultParts fieldNames columns)

/-- The projection for a request on a collection with the given fields. -/
def resolve (fieldNames : List String) (request : ProjectionRequest) :
    Except RequestFault Projection :=
  match requestedParts fieldNames request with
  | .error fault => .error fault
  | .ok parts => .ok (ofParts parts)

end Projection

end DocGate
