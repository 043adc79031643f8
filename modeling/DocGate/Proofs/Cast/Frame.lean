import DocGate.Proofs.Bson.Equality
import DocGate.Proofs.Cast.Compilation

/-!
# What a cast leaves alone

The caster of a schema casts as the field definitions say, and `Framed` says how
little that is.  Only values of a shape that their kind takes can change.  The
entries of a document keep their names and their order, the elements of an array
their places, at every depth; only a point gives way to its coordinates.

`FieldDefinition.framed_castValue` is the induction on values.  The main result,
`Caster.cast_by_definitions`, is about whole documents and starts from the fields
that were compiled.
-/

namespace DocGate

/-- Whether a kind takes values of some shape.  A value of another shape is kept
as it is. -/
def FieldKind.takes : FieldKind → Bson → Bool
  | string, .string _ | string, .int32 _ | string, .int64 _ | string, .double _
  | string, .bool _ => true
  | number, .int32 _ | number, .int64 _ | number, .double _ | number, .string _
  | number, .bool _ => true
  | boolean, .bool _ | boolean, .string _ | boolean, .int32 _ | boolean, .int64 _ => true
  | date, .dateTime _ => true
  | objectId, .objectId _ => true
  | geoPoint, .document entries => (CastKind.pointCoordinates? entries).isSome
  | rawObject, .document _ => true
  | array, .array _ => true
  | _, _ => false

/-- A scalar of a shape that its kind does not take is kept. -/
theorem FieldKind.castScalar_of_not_takes {kind : FieldKind} {value : Bson}
    (h : kind.takes value = false) : kind.castScalar value = value := by
  cases kind <;> cases value <;> first | rfl | cases h

namespace FieldDefinition

mutual

/-- What a cast makes of a value that has a definition, or has none. -/
inductive Framed : Option FieldDefinition → Bson → Bson → Prop
  /-- What is not declared is kept. -/
  | undeclared (value : Bson) : Framed none value value
  /-- What its kind does not take is kept. -/
  | misfit {field : FieldDefinition} {value : Bson} (h : field.kind.takes value = false) :
      Framed (some field) value value
  | scalar {field : FieldDefinition} {value : Bson} (hscalar : value.isScalar = true)
      (h : field.kind.takes value = true) : Framed (some field) value (field.kind.castScalar value)
  | point {field : FieldDefinition} {entries : Document} {coordinates : List Bson}
      (hkind : field.kind = .geoPoint)
      (h : CastKind.pointCoordinates? entries = some coordinates) :
      Framed (some field) (.document entries) (.array coordinates)
  | object {field : FieldDefinition} {entries shown : Document} (hkind : field.kind = .rawObject)
      (h : EntriesFramed field.content entries shown) :
      Framed (some field) (.document entries) (.document shown)
  | array {field : FieldDefinition} {values shown : List Bson} (hkind : field.kind = .array)
      (h : ItemsFramed field.items values shown) : Framed (some field) (.array values) (.array shown)

/-- The entries of a document, one by one. -/
inductive EntriesFramed : List FieldDefinition → Document → Document → Prop
  | nil {fields : List FieldDefinition} : EntriesFramed fields [] []
  | cons {fields : List FieldDefinition} {name : String} {value shown : Bson}
      {rest others : Document} (h : Framed (find? fields name) value shown)
      (hrest : EntriesFramed fields rest others) :
      EntriesFramed fields ((name, value) :: rest) ((name, shown) :: others)

/-- The elements of an array, one by one. -/
inductive ItemsFramed : Option FieldDefinition → List Bson → List Bson → Prop
  | nil {item : Option FieldDefinition} : ItemsFramed item [] []
  | cons {item : Option FieldDefinition} {value shown : Bson} {rest others : List Bson}
      (h : Framed item value shown) (hrest : ItemsFramed item rest others) :
      ItemsFramed item (value :: rest) (shown :: others)

end

variable {fields : List FieldDefinition}

/-- The entry of a document is framed if the values of all fields are. -/
theorem framed_castEntry {value : Bson} (h : ∀ field, Framed (some field) value (castValue field value))
    (fields : List FieldDefinition) (name : String) :
    Framed (find? fields name) value (castEntry fields name value) := by
  rw [castEntry]
  cases find? fields name with
  | none => exact .undeclared value
  | some field => exact h field

theorem entriesFramed_castEntries {entries : Document}
    (h : ∀ entry ∈ entries, ∀ field, Framed (some field) entry.2 (castValue field entry.2)) :
    EntriesFramed fields entries (castEntries fields entries) := by
  induction entries with
  | nil => exact .nil
  | cons entry rest ih =>
    obtain ⟨hfirst, hrest⟩ := List.forall_mem_cons.1 h
    exact .cons (framed_castEntry hfirst fields entry.1) (ih hrest)

theorem itemsFramed_castItems {item : FieldDefinition} {values : List Bson}
    (h : ∀ value ∈ values, ∀ field, Framed (some field) value (castValue field value)) :
    ItemsFramed (some item) values (castItems item values) := by
  induction values with
  | nil => exact .nil
  | cons value rest ih =>
    obtain ⟨hfirst, hrest⟩ := List.forall_mem_cons.1 h
    exact .cons (hfirst item) (ih hrest)

theorem itemsFramed_self (values : List Bson) : ItemsFramed none values values := by
  induction values with
  | nil => exact .nil
  | cons value rest ih => exact .cons (.undeclared value) ih

/-- The cast of a value by its definition changes no more than the definition
says. -/
theorem framed_castValue (value : Bson) :
    ∀ field : FieldDefinition, Framed (some field) value (field.castValue value) := by
  induction value using Bson.induction with
  | scalar value hscalar =>
    intro field
    have hcast : field.castValue value = field.kind.castScalar value := by
      cases value <;> first | rfl | cases hscalar
    rw [hcast]
    cases h : field.kind.takes value with
    | true => exact .scalar hscalar h
    | false =>
      rw [FieldKind.castScalar_of_not_takes h]
      exact .misfit h
  | array values ih =>
    intro field
    by_cases hkind : field.kind = .array
    · cases hitem : field.items with
      | none =>
        have hcast : field.castValue (.array values) = .array values := by
          simp only [castValue, hkind, hitem]
        rw [hcast]
        exact .array hkind (hitem ▸ itemsFramed_self values)
      | some item =>
        rw [castValue_array hkind hitem]
        exact .array hkind (hitem ▸ itemsFramed_castItems ih)
    · have hcast : field.castValue (.array values) = .array values := by
        rw [castValue]
        split
        · exact absurd ‹_› hkind
        · rfl
      rw [hcast]
      refine .misfit ?_
      cases h : field.kind <;> first | rfl | exact absurd h hkind
  | document entries ih =>
    intro field
    cases hkind : field.kind with
    | rawObject =>
      rw [castValue_document hkind]
      exact .object hkind (entriesFramed_castEntries ih)
    | geoPoint =>
      rw [castValue_geoPoint hkind, CastKind.apply]
      cases h : CastKind.pointCoordinates? entries with
      | some coordinates => exact .point hkind h
      | none => exact .misfit (by rw [hkind, FieldKind.takes, h]; rfl)
    | _ =>
      simp only [castValue, hkind]
      exact .misfit (by rw [hkind]; rfl)

/-- What a cast makes of an entry at the top of a document: the name stays, a
bookkeeping field has its own cast, the value of another field is framed by its
definition. -/
structure TopFramed (fields : List FieldDefinition) (entry shown : String × Bson) : Prop where
  name_eq : shown.1 = entry.1
  reserved : Bookkeeping.isReserved entry.1 = true → shown.2 = castReserved entry.1 entry.2
  framed : Bookkeeping.isReserved entry.1 = false → Framed (find? fields entry.1) entry.2 shown.2

/-- The cast of a document by its definitions changes no more than the
definitions say. -/
theorem topFramed_castDocument (fields : List FieldDefinition) (document : Document) :
    List.Forall₂ (TopFramed fields) document (castDocument fields document) := by
  rw [castDocument, List.forall₂_map_right_iff, List.forall₂_same]
  intro entry _
  refine ⟨rfl, fun h => if_pos h, fun h => ?_⟩
  rw [h, if_neg Bool.false_ne_true]
  exact framed_castEntry (framed_castValue entry.2) fields entry.1

end FieldDefinition

namespace Caster

/-- A list of fields that compiles has a caster, and the caster casts every
document as the definitions of the fields say, and changes no more than they
say. -/
theorem cast_by_definitions {fields : List FieldDefinition} {tree : SchemaTree}
    (h : SchemaTree.ofFields fields = .ok tree) :
    ∃ caster, Caster.ofSchema tree = .ok caster ∧ ∀ document,
      caster.cast document = FieldDefinition.castDocument fields document ∧
      List.Forall₂ (FieldDefinition.TopFramed fields) document (caster.cast document) := by
  obtain ⟨caster, hcaster, hcast⟩ := exists_ofSchema h
  refine ⟨caster, hcaster, fun document => ⟨hcast document, ?_⟩⟩
  rw [hcast document]
  exact FieldDefinition.topFramed_castDocument fields document

/-- Fields at several depths, one of them a bookkeeping field declared with a kind
of its own. -/
def parcelFields : List FieldDefinition := [
  { name := "_id", kind := .number },
  { name := "fragile", kind := .string },
  .array "stops" { FieldDefinition.rawObject "" [
    { name := "place", kind := .geoPoint },
    { name := "courier", kind := .objectId }] with nullable := true }]

/-- The identifier stays a text, although it is declared as a number.  Points and
identifiers in the elements of an array are cast, and what has no definition or
does not fit its definition is kept. -/
theorem cast_by_definitions_parcel :
    ∃ tree caster, SchemaTree.ofFields parcelFields = .ok tree ∧ ofSchema tree = .ok caster ∧
      caster.cast [("_id", .string "7"), ("weight", .string "3"), ("fragile", .bool true),
        ("stops", .array [.null, .document [("courier", .objectId ⟨7⟩), ("late", .bool true),
          ("place", .document [("type", .string "Point"), ("coordinates", .array [.int32 1])])]])] =
        [("_id", .string "7"), ("weight", .string "3"), ("fragile", .string "true"),
        ("stops", .array [.null, .document [("courier", .string "000000000000000000000007"),
          ("late", .bool true), ("place", .array [.int32 1])]])] := by
  obtain ⟨caster, hcaster, hcast⟩ :=
    cast_by_definitions (rfl : SchemaTree.ofFields parcelFields = .ok _)
  exact ⟨_, caster, rfl, hcaster, (hcast _).1⟩

end Caster

end DocGate
