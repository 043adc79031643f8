import DocGate.Error
import DocGate.Projection.Basic
import DocGate.Text.Split

/-!
# Applying a projection

The store applies a projection of markers to a document.  One that includes
paths returns these and the identifier, unless it excludes that; one that only
excludes paths returns the rest.  Other mixtures and computed fields are
beyond the store.

A path leads through documents only.  What it includes of a nested document is
a document again, with the entries in the order in which the projection
mentions them.
-/

namespace DocGate

namespace Document

/-- Copies what `source` has at a path into `target`. -/
def copyPath (source target : Document) : List String → Document
  | [] => target
  | [key] =>
    match source.get? key with
    | some value => target.set key value
    | none => target
  | key :: next :: rest =>
    match source.get? key with
    | some (.document inner) =>
      let started : Document :=
        match target.get? key with
        | some (.document entries) => entries
        | _ => []
      target.set key (.document (copyPath inner started (next :: rest)))
    | _ => target

/-- Removes what a document has at a path. -/
def removePath (document : Document) : List String → Document
  | [] => document
  | [key] => document.erase key
  | key :: next :: rest =>
    match document.get? key with
    | some (.document inner) => document.set key (.document (removePath inner (next :: rest)))
    | _ => document

end Document

namespace Projection

/-- The paths that a projection includes and those that it excludes, in order. -/
structure MarkedPaths where
  included : List String := []
  excluded : List String := []

/-- Sorts the entries of a projection by their markers. -/
def markedPaths : List (String × Bson) → Except StoreFault MarkedPaths
  | [] => .ok {}
  | (key, value) :: rest =>
    match marker? value with
    | none => .error (.computedProjection key)
    | some includes =>
      match markedPaths rest with
      | .error fault => .error fault
      | .ok paths =>
        .ok (if includes then { paths with included := key :: paths.included }
          else { paths with excluded := key :: paths.excluded })

/-- The identifier of a document, if it comes along without being mentioned. -/
def impliedId (paths : MarkedPaths) (document : Document) : Document :=
  if paths.excluded.contains Bookkeeping.idField || paths.included.contains Bookkeeping.idField then
    []
  else
    match document.get? Bookkeeping.idField with
    | some id => [(Bookkeeping.idField, id)]
    | none => []

/-- What a read with this projection returns of a document. -/
def apply (projection : Projection) (document : Document) : Except StoreFault Document :=
  match markedPaths projection.entries with
  | .error fault => .error fault
  | .ok paths =>
    if paths.included.isEmpty then
      .ok (paths.excluded.foldl (fun left path => Document.removePath left (Text.pathKeys path))
        document)
    else if paths.excluded.any fun path => path ≠ Bookkeeping.idField then
      .error .mixedProjection
    else
      .ok (paths.included.foldl
        (fun copied path => Document.copyPath document copied (Text.pathKeys path))
        (impliedId paths document))

end Projection

end DocGate
