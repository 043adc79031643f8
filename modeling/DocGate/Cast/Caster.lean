import DocGate.Cast.Plan

/-!
# Casting documents

A `Caster` is made once for the schema of a collection and casts the stored
documents on their way to the caller.  The bookkeeping fields at the top of a
document have casts of their own, whatever the schema says about them, and are
no part of the plan.
-/

namespace DocGate

/-- The plans for the fields of a document that are no bookkeeping fields. -/
structure Caster where
  properties : Assoc CastPlan

namespace Caster

/-- The caster with a cast of its own at the place of a target, if the place
exists. -/
def graft? (caster : Caster) (target : CastTarget) : Option Caster :=
  match target.path with
  | .field name :: rest =>
    match caster.properties.get? name with
    | some child =>
      match child.graft? rest target.kind with
      | some grafted => some ⟨caster.properties.set name grafted⟩
      | none => none
    | none => none
  | _ => none

/-- The caster with the casts of all targets that do not lie in bookkeeping
fields. -/
def graftAll (caster : Caster) : List CastTarget → Except DefinitionFault Caster
  | [] => .ok caster
  | target :: rest =>
    if target.path.root?.any Bookkeeping.isReserved then caster.graftAll rest
    else
      match caster.graft? target with
      | some grafted => grafted.graftAll rest
      | none => .error (.unmatchedCastTarget target.path.text)

/-- The caster for the documents of a schema. -/
def ofSchema (tree : SchemaTree) : Except DefinitionFault Caster :=
  let declared := tree.root.properties.filter fun property => !Bookkeeping.isReserved property.1
  graftAll ⟨CastPlan.ofProperties declared⟩ tree.castTargets

/-- The cast of an entry at the top of a document that is a bookkeeping field;
other entries stay as they are. -/
def castBookkeepingEntry (name : String) (value : Bson) : Bson :=
  if name = Bookkeeping.idField then CastKind.objectId.apply value
  else if name = Bookkeeping.createdAtField ∨ name = Bookkeeping.updatedAtField then
    Primitive.dateTime.coerce value
  else value

/-- The document with its bookkeeping fields cast. -/
def castBookkeeping (document : Document) : Document :=
  document.map fun entry => (entry.1, castBookkeepingEntry entry.1 entry.2)

/-- The document in the form that the caller sees. -/
def cast (caster : Caster) (document : Document) : Document :=
  CastPlan.applyEntries caster.properties (castBookkeeping document)

/-- A cast keeps the names of a document's entries and their order. -/
theorem keys_cast (caster : Caster) (document : Document) :
    (caster.cast document).keys = document.keys := by
  rw [cast, CastPlan.keys_applyEntries, castBookkeeping, Assoc.keys, List.map_map]
  rfl

/-- The cast of an entry at the top of a document. -/
def castEntry (caster : Caster) (name : String) (value : Bson) : Bson :=
  match caster.properties.get? name with
  | some plan => plan.apply (castBookkeepingEntry name value)
  | none => castBookkeepingEntry name value

/-- A cast changes every entry by itself. -/
theorem cast_eq_map (caster : Caster) (document : Document) :
    caster.cast document =
      document.map fun entry => (entry.1, caster.castEntry entry.1 entry.2) := by
  rw [cast, CastPlan.applyEntries_eq_map, castBookkeeping, List.map_map]
  rfl

theorem get?_cast (caster : Caster) (document : Document) (key : String) :
    (caster.cast document).get? key = (document.get? key).map (caster.castEntry key) := by
  rw [cast_eq_map]
  exact Assoc.get?_map caster.castEntry document key

/-- The cast of an entry depends on nothing else in the document. -/
theorem get?_cast_congr (caster : Caster) {document document' : Document} {key : String}
    (h : document.get? key = document'.get? key) :
    (caster.cast document).get? key = (caster.cast document').get? key := by
  rw [get?_cast, get?_cast, h]

end Caster

end DocGate
