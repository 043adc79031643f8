import DocGate.Cast.Coerce
import DocGate.Definition.Bookkeeping

/-!
# Casting by the field definitions

What a cast does to a document, said of the declared fields themselves, without
a schema or a plan in between.  A field is cast by its kind, the content of an
object and the elements of an array by the definitions in it, and what is not
declared stays as it is.  The bookkeeping fields at the top have casts of their
own, however they are declared.
-/

namespace DocGate

/-- The primitive type that the values of a kind are coerced to, if it is one. -/
def FieldKind.primitive? : FieldKind → Option Primitive
  | string => some .string
  | number => some .number
  | boolean => some .boolean
  | date => some .dateTime
  | _ => none

/-- A value with no values in it, cast by the kind of its field. -/
def FieldKind.castScalar : FieldKind → Bson → Bson
  | .objectId, .objectId id => .string id.hex
  | kind, value =>
    match kind.primitive? with
    | some target => target.coerce value
    | none => value

namespace FieldDefinition

/-- The first field with a name. -/
def find? (fields : List FieldDefinition) (name : String) : Option FieldDefinition :=
  List.find? (fun field => field.name = name) fields

mutual

/-- The value of a field, cast by the definition of the field. -/
def castValue : FieldDefinition → Bson → Bson
  | field, .document entries =>
    match field.kind with
    | .geoPoint =>
      match CastKind.pointCoordinates? entries with
      | some coordinates => .array coordinates
      | none => .document entries
    | .rawObject => .document (castEntries field.content entries)
    | _ => .document entries
  | field, .array values =>
    match field.kind, field.items with
    | .array, some item => .array (castItems item values)
    | _, _ => .array values
  | field, value => field.kind.castScalar value
termination_by structural _ value => value

/-- The entries of a document, each cast by the definition of its field. -/
def castEntries : List FieldDefinition → List (String × Bson) → Document
  | _, [] => []
  | fields, (name, value) :: rest =>
    (name,
      match find? fields name with
      | some field => castValue field value
      | none => value) :: castEntries fields rest
termination_by structural _ entries => entries

/-- The elements of an array, each cast by their definition. -/
def castItems : FieldDefinition → List Bson → List Bson
  | _, [] => []
  | item, value :: rest => castValue item value :: castItems item rest
termination_by structural _ items => items

end

/-- The value of an entry, cast by the definition of its field if there is one. -/
def castEntry (fields : List FieldDefinition) (name : String) (value : Bson) : Bson :=
  match find? fields name with
  | some field => castValue field value
  | none => value

/-! ## The kinds of field -/

variable {field : FieldDefinition}

theorem castValue_of_primitive? {target : Primitive} (h : field.kind.primitive? = some target)
    (value : Bson) : field.castValue value = target.coerce value := by
  cases hkind : field.kind <;> rw [hkind] at h <;> cases h <;> cases value <;>
    simp only [castValue, hkind] <;> rfl

theorem castValue_objectId (h : field.kind = .objectId) (value : Bson) :
    field.castValue value = CastKind.objectId.apply value := by
  cases value <;> simp only [castValue, h] <;> rfl

theorem castValue_geoPoint (h : field.kind = .geoPoint) (value : Bson) :
    field.castValue value = CastKind.geoPoint.apply value := by
  cases value <;> simp only [castValue, h] <;> rfl

theorem castValue_document (h : field.kind = .rawObject) (entries : Document) :
    field.castValue (.document entries) = .document (castEntries field.content entries) := by
  simp only [castValue, h]

theorem castValue_array (h : field.kind = .array) {item : FieldDefinition}
    (hitem : field.items = some item) (values : List Bson) :
    field.castValue (.array values) = .array (castItems item values) := by
  simp only [castValue, h, hitem]

theorem castEntries_eq_map (fields : List FieldDefinition) (entries : Document) :
    castEntries fields entries =
      entries.map fun entry => (entry.1, castEntry fields entry.1 entry.2) := by
  induction entries with
  | nil => rfl
  | cons entry rest ih =>
    rw [castEntries, ih]
    rfl

theorem castItems_eq_map (item : FieldDefinition) (values : List Bson) :
    castItems item values = values.map item.castValue := by
  induction values with
  | nil => rfl
  | cons value rest ih =>
    rw [castItems, ih]
    rfl

/-- The definition of a declared field is found by its name. -/
theorem find?_of_mem {fields : List FieldDefinition} (hnodup : (fields.map name).Nodup)
    (hfield : field ∈ fields) : find? fields field.name = some field := by
  induction fields with
  | nil => cases hfield
  | cons first rest ih =>
    obtain ⟨hfresh, hrest⟩ := List.nodup_cons.1 hnodup
    rw [find?, List.find?_cons]
    obtain rfl | hfield := List.mem_cons.1 hfield
    · simp
    · have hne : first.name ≠ field.name := fun heq =>
        hfresh (heq ▸ List.mem_map_of_mem hfield)
      simpa [hne, find?] using ih hrest hfield

theorem castEntry_of_find? {fields : List FieldDefinition} {name : String}
    (h : find? fields name = some field) (value : Bson) :
    castEntry fields name value = field.castValue value := by
  rw [castEntry, h]

/-- The value of a bookkeeping field: an identifier as its digits, the two dates
as their texts, anything else as it is. -/
def castReserved (name : String) (value : Bson) : Bson :=
  match value with
  | .objectId id => if name = Bookkeeping.idField then .string id.hex else value
  | .dateTime date =>
    if name = Bookkeeping.createdAtField ∨ name = Bookkeeping.updatedAtField then .string date.text
    else value
  | _ => value

/-- A document, cast by the definitions of its fields. -/
def castDocument (fields : List FieldDefinition) (document : Document) : Document :=
  document.map fun entry =>
    (entry.1,
      if Bookkeeping.isReserved entry.1 then castReserved entry.1 entry.2
      else castEntry fields entry.1 entry.2)

end FieldDefinition

end DocGate
