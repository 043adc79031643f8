import DocGate.Bson.Basic
import DocGate.Definition.Bookkeeping

/-!
# Projections

A projection says what a read returns of each document.  It maps paths to
markers, which include or exclude them, and names of new fields to expressions
that compute them.

A projection is put together from parts, later ones winning over earlier ones.
There is always something to return: a projection of no parts returns the
identifier.
-/

namespace DocGate

/-- What a read returns of each document. -/
structure Projection where
  entries : Document
  deriving DecidableEq

/-- A contribution to a projection. -/
inductive ProjectionPart
  /-- Include a field. -/
  | field (name : String)
  /-- Take over the entries of a projection. -/
  | entries (document : Document)

namespace Projection

/-- The value that includes a path. -/
def inclusion : Bson := .int32 1

/-- Whether a value of a projection is a marker, and whether it includes or
excludes.  Truth values and numbers are markers, and zero excludes. -/
def marker? : Bson → Option Bool
  | .bool value => some value
  | .int32 n => some (n != 0)
  | .int64 n => some (n != 0)
  | .double d => some (!d.isZero)
  | _ => none

end Projection

namespace ProjectionPart

/-- Adds a part to the entries collected so far. -/
def addTo (collected : Document) : ProjectionPart → Document
  | .field name => collected.set name Projection.inclusion
  | .entries document => collected.setAll document

end ProjectionPart

namespace Projection

/-- The projection that returns the identifier only. -/
def idOnly : Projection :=
  ⟨[(Bookkeeping.idField, inclusion)]⟩

/-- The projection with the given entries, or the identifier if there are none. -/
def ofEntries (entries : Document) : Projection :=
  if entries.isEmpty then idOnly else ⟨entries⟩

/-- The projection put together from parts. -/
def ofParts (parts : List ProjectionPart) : Projection :=
  ofEntries (parts.foldl ProjectionPart.addTo [])

/-- The keys of a projection, in order. -/
def keys (projection : Projection) : List String :=
  projection.entries.keys

/-- Whether every entry excludes its path. -/
def isExclusive (projection : Projection) : Bool :=
  projection.entries.all fun entry => marker? entry.2 == some false

end Projection

end DocGate
