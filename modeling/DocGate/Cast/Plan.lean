import DocGate.Cast.Coerce
import DocGate.Definition.Bookkeeping

/-!
# Cast plans

A cast plan says what to do with a value and the values in it.  It has the
shape of a schema without the parts that matter only for validation.  Nodes
with a cast of their own are first left alone and then replaced, each at the
place that its cast target names (`CastPlan.graft?`).
-/

namespace DocGate

/-- What to do with a value. -/
inductive CastPlan
  /-- Leave it as it is. -/
  | keep
  /-- Coerce it to a primitive type. -/
  | coerce (target : Primitive)
  /-- Apply a cast of its own. -/
  | special (kind : CastKind)
  /-- Cast the entries that are listed and leave the others alone. -/
  | object (properties : List (String × CastPlan))
  /-- Cast every element. -/
  | array (items : CastPlan)

namespace CastPlan

mutual

/-- The plan for the values of a node. -/
def ofNode : SchemaNode → CastPlan
  | .text format _ notes =>
    if notes.cast.isSome then .keep
    else
      match format with
      | some .dateTime => .coerce .dateTime
      | none => .coerce .string
  | .number notes => if notes.cast.isSome then .keep else .coerce .number
  | .boolean notes => if notes.cast.isSome then .keep else .coerce .boolean
  | .array items _ _ notes => if notes.cast.isSome then .keep else .array (ofNode items)
  | .object properties _ _ notes =>
    if notes.cast.isSome then .keep else .object (ofProperties properties)

/-- The plans for the properties of an object. -/
def ofProperties : List (String × SchemaNode) → List (String × CastPlan)
  | [] => []
  | (name, node) :: rest => (name, ofNode node) :: ofProperties rest

end

/-- The plan with a cast of its own at the place that a path leads to, if it
leads anywhere. -/
def graft? : FieldPath → CastKind → CastPlan → Option CastPlan
  | [], kind, _ => some (.special kind)
  | .field name :: rest, kind, .object properties =>
    match Assoc.get? properties name with
    | some child =>
      match graft? rest kind child with
      | some grafted => some (.object (Assoc.set properties name grafted))
      | none => none
    | none => none
  | .items :: rest, kind, .array items =>
    match graft? rest kind items with
    | some grafted => some (.array grafted)
    | none => none
  | _, _, _ => none

mutual

/-- The value cast by a plan. -/
def apply : CastPlan → Bson → Bson
  | .coerce target, value => target.coerce value
  | .special kind, value => kind.apply value
  | .object properties, .document entries => .document (applyEntries properties entries)
  | .array plan, .array items => .array (applyItems plan items)
  | _, value => value
termination_by structural _ value => value

/-- The entries of a document cast by the plans for their names. -/
def applyEntries : Assoc CastPlan → List (String × Bson) → Document
  | _, [] => []
  | properties, (name, value) :: rest =>
    (name,
      match properties.get? name with
      | some plan => apply plan value
      | none => value) :: applyEntries properties rest
termination_by structural _ entries => entries

/-- The elements of an array cast by one plan. -/
def applyItems : CastPlan → List Bson → List Bson
  | _, [] => []
  | plan, item :: rest => apply plan item :: applyItems plan rest
termination_by structural _ items => items

end

theorem apply_coerce (target : Primitive) (value : Bson) :
    (coerce target).apply value = target.coerce value := by
  cases value <;> rfl

theorem apply_special (kind : CastKind) (value : Bson) :
    (special kind).apply value = kind.apply value := by
  cases value <;> rfl

theorem applyEntries_eq_map (properties : Assoc CastPlan) (entries : Document) :
    applyEntries properties entries = entries.map fun entry =>
      (entry.1,
        match properties.get? entry.1 with
        | some plan => plan.apply entry.2
        | none => entry.2) := by
  induction entries with
  | nil => rfl
  | cons entry rest ih =>
    rw [applyEntries, ih]
    rfl

theorem applyItems_eq_map (plan : CastPlan) (items : List Bson) :
    applyItems plan items = items.map plan.apply := by
  induction items with
  | nil => rfl
  | cons item rest ih =>
    rw [applyItems, ih]
    rfl

/-- A cast keeps the names of a document's entries and their order. -/
theorem keys_applyEntries (properties : Assoc CastPlan) (entries : Document) :
    (applyEntries properties entries).keys = entries.keys := by
  induction entries with
  | nil => rfl
  | cons entry rest ih =>
    obtain ⟨name, value⟩ := entry
    rw [applyEntries]
    exact congrArg (name :: ·) ih

end CastPlan

end DocGate
