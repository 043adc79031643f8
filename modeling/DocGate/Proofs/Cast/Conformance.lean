import DocGate.Proofs.Cast.Compilation
import DocGate.Proofs.Cast.Settled
import DocGate.Proofs.Schema.Bookkeeping
import DocGate.Proofs.Schema.Validation
import DocGate.Proofs.Text.Timestamp

/-!
# Cast documents satisfy their schema

A schema describes the documents that callers see, not those that are stored.
The two differ by the cast.  `FieldDefinition.WellTyped` says which values may be
stored under a field, and the cast of such a value is one that the node of the
field admits (`FieldDefinition.admits_castValue`).  The main result,
`Caster.cast_validates`, is the same for whole documents and rendered schemas.

* Scalars and points.  `FieldKind.Stores` lists the values that a kind stores in
  its own form, `FieldKind.Converts` those that a cast turns into such values.
* Bookkeeping fields.  They have casts of their own, which do what the kinds of
  these fields ask for (`castReserved_eq_castValue`), as no definition may change
  the kinds.
-/

namespace DocGate

/-! ## Well-typed values -/

/-- Whether a value is a number that is finite. -/
def Bson.isFiniteNumber : Bson → Bool
  | .int32 _ | .int64 _ => true
  | .double d => d.isFinite
  | _ => false

/-- The values that a kind stores in its own form.  The values in an object or an
array have definitions of their own, so these two kinds are not among them. -/
inductive FieldKind.Stores : FieldKind → Bson → Prop
  | string (text : String) : Stores .string (.string text)
  | number {value : Bson} (h : value.isFiniteNumber = true) : Stores .number value
  | boolean (value : Bool) : Stores .boolean (.bool value)
  | date {date : DateTime} (h : 0 ≤ date.year ∧ date.year ≤ 9999) : Stores .date (.dateTime date)
  | objectId (id : ObjectId) : Stores .objectId (.objectId id)
  | geoPoint {entries : Document} {coordinates : List Bson}
      (htype : entries.get? "type" = some (.string "Point"))
      (hcoordinates : entries.get? "coordinates" = some (.array coordinates))
      (hlength : 2 ≤ coordinates.length ∧ coordinates.length ≤ 3)
      (hfinite : ∀ coordinate ∈ coordinates, coordinate.isFiniteNumber = true) :
      Stores .geoPoint (.document entries)

/-- Whether a value of another type is coerced to one that the kind stores. -/
def FieldKind.Converts (kind : FieldKind) (value : Bson) : Prop :=
  ∃ target, kind.primitive? = some target ∧ kind.Stores (target.coerce value)

namespace FieldDefinition

/-- The values that may be stored under a field. -/
inductive WellTyped : FieldDefinition → Bson → Prop
  | null {field : FieldDefinition} (h : field.nullable = true) : WellTyped field .null
  | stored {field : FieldDefinition} {value : Bson} (h : field.kind.Stores value) :
      WellTyped field value
  | loose {field : FieldDefinition} {value : Bson} (h : field.kind.Converts value) :
      WellTyped field value
  | object {field : FieldDefinition} {entries : Document} (hkind : field.kind = .rawObject)
      (hrequired : ∀ inner ∈ field.content, inner.required = true → inner.name ∈ entries.keys)
      (hclosed : field.toleratesOthers = false →
        ∀ name ∈ entries.keys, ∃ inner ∈ field.content, inner.name = name)
      (hentries : ∀ entry ∈ entries, ∀ inner, find? field.content entry.1 = some inner →
        WellTyped inner entry.2) : WellTyped field (.document entries)
  | array {field item : FieldDefinition} {values : List Bson} (hkind : field.kind = .array)
      (hitem : field.items = some item) (hvalues : ∀ value ∈ values, WellTyped item value) :
      WellTyped field (.array values)

/-- The documents that may be stored under some fields.  The bookkeeping fields
are stored in their own form only. -/
structure WellTypedDocument (fields : List FieldDefinition) (document : Document) : Prop where
  required : ∀ field ∈ fields, field.required = true → field.name ∈ document.keys
  reserved : ∀ entry ∈ document, ∀ field, find? fields entry.1 = some field →
    Bookkeeping.isReserved entry.1 = true →
      entry.2 = .null ∧ field.nullable = true ∨ field.kind.Stores entry.2
  declared : ∀ entry ∈ document, ∀ field, find? fields entry.1 = some field →
    Bookkeeping.isReserved entry.1 = false → field.WellTyped entry.2

end FieldDefinition

/-- The documents that may be stored in a collection. -/
def CollectionDefinition.WellTyped (definition : CollectionDefinition) (document : Document) : Prop :=
  FieldDefinition.WellTypedDocument (definition.omittedFields ++ definition.fields) document

/-! ## Scalars and points -/

theorem Bson.hasTypeName_number {value : Bson} (h : value.isFiniteNumber = true) :
    JsonSchema.hasTypeName value "number" = true := by
  cases value with
  | int32 n => rfl
  | int64 n => rfl
  | double d =>
    rw [isFiniteNumber] at h
    rw [JsonSchema.hasTypeName, h]
    rfl
  | _ => cases h

/-- A finite number is coerced to itself. -/
theorem Primitive.coerce_number {value : Bson} (h : value.isFiniteNumber = true) :
    Primitive.number.coerce value = value := by
  cases value <;> first | rfl | cases h

/-- The digits of an identifier have the form that the pattern describes. -/
theorem ObjectId.exists_pattern (id : ObjectId) :
    ∃ form, Pattern.read? SchemaNode.objectIdPattern = some form ∧ form.accepts id.hex = true := by
  refine ⟨⟨[('a', 'f'), ('A', 'F'), ('0', '9')], 24⟩, by decide +kernel, ?_⟩
  have hdigits : ∀ digit : Fin 16,
      (Pattern.mk [('a', 'f'), ('A', 'F'), ('0', '9')] 24).allows (Nat.digitChar digit) = true := by
    decide +kernel
  rw [Pattern.accepts, hex, String.toList_ofList, hexChars, Text.length_hexChars, Bool.and_eq_true]
  refine ⟨by decide, List.all_eq_true.2 fun c hc => ?_⟩
  obtain ⟨digit, hlt, rfl⟩ := Text.mem_hexChars hc
  exact hdigits ⟨digit, hlt⟩

namespace FieldDefinition

variable {field : FieldDefinition} {path : FieldPath} {node : SchemaNode} {targets : List CastTarget}
  {value : Bson}

theorem castValue_null (field : FieldDefinition) : field.castValue .null = .null := by
  cases hkind : field.kind <;> simp only [castValue, hkind] <;> rfl

/-- What a kind stores is cast to a value that its node admits. -/
theorem Compiled.admits_of_stores (h : Compiled path field node targets)
    (hvalue : field.kind.Stores value) : node.Admits (field.castValue value) := by
  cases h with
  | string hkind =>
    rw [castValue_of_primitive? (by rw [hkind]; rfl)]
    rw [hkind] at hvalue
    cases hvalue with
    | string text => exact .text (fun h => nomatch h) (fun _ h => nomatch h)
  | number hkind =>
    rw [castValue_of_primitive? (by rw [hkind]; rfl)]
    rw [hkind] at hvalue
    cases hvalue with
    | number hfinite =>
      rw [Primitive.coerce_number hfinite]
      exact .number (Bson.hasTypeName_number hfinite)
  | boolean hkind =>
    rw [castValue_of_primitive? (by rw [hkind]; rfl)]
    rw [hkind] at hvalue
    cases hvalue with
    | boolean value => exact .boolean value
  | date hkind =>
    rw [castValue_of_primitive? (by rw [hkind]; rfl)]
    rw [hkind] at hvalue
    cases hvalue with
    | date hyear => exact .text (fun _ => DateTime.isTimestamp_text hyear) (fun _ h => nomatch h)
  | objectId hkind =>
    rw [castValue_objectId hkind]
    rw [hkind] at hvalue
    cases hvalue with
    | objectId id =>
      refine .text (fun h => nomatch h) ?_
      rintro _ ⟨⟩
      exact id.exists_pattern
  | geoPoint hkind =>
    rw [castValue_geoPoint hkind]
    rw [hkind] at hvalue
    cases hvalue with
    | @geoPoint entries coordinates htype hcoordinates hlength hfinite =>
      have hpoint : CastKind.pointCoordinates? entries = some coordinates := by
        rw [CastKind.pointCoordinates?, htype, hcoordinates]
        rfl
      rw [CastKind.apply, hpoint]
      refine .array ?_ ?_ fun coordinate hmem => .number (Bson.hasTypeName_number (hfinite _ hmem))
      · rintro _ ⟨⟩
        exact hlength.1
      · rintro _ ⟨⟩
        exact hlength.2
  | rawObject hkind =>
    rw [hkind] at hvalue
    cases hvalue
  | array hkind =>
    rw [hkind] at hvalue
    cases hvalue

/-- What is coerced to a value that the kind stores is cast to a value that its
node admits. -/
theorem Compiled.admits_of_converts (h : Compiled path field node targets)
    (hvalue : field.kind.Converts value) : node.Admits (field.castValue value) := by
  obtain ⟨target, htarget, hstores⟩ := hvalue
  have hadmits := h.admits_of_stores hstores
  rw [castValue_of_primitive? htarget, Primitive.coerce_coerce] at hadmits
  rwa [castValue_of_primitive? htarget]

end FieldDefinition

/-! ## Objects and arrays -/

namespace CompiledField

variable {parent : FieldPath} {parts : List (CompiledField parent)}

/-- The node of an object admits entries that have the names of its fields and are
cast to values that the nodes of these fields admit. -/
theorem admits_collect {fields : List FieldDefinition}
    (hparts : parts.map CompiledField.field = fields) {additional : Bool} {notes : NodeNotes}
    {entries : Document} (cast : String → Bson → Bson)
    (hrequired : ∀ field ∈ fields, field.required = true → field.name ∈ entries.keys)
    (hclosed : additional = false → ∀ name ∈ entries.keys, ∃ field ∈ fields, field.name = name)
    (hentries : ∀ entry ∈ entries, ∀ part ∈ parts, part.field.name = entry.1 →
      part.node.Admits (cast entry.1 entry.2)) :
    SchemaNode.Admits (.object (collect parts).properties (collect parts).required additional notes)
      (.document (entries.map fun entry => (entry.1, cast entry.1 entry.2))) := by
  have hkeys : Assoc.keys (entries.map fun entry => (entry.1, cast entry.1 entry.2)) =
      entries.keys := by
    rw [Assoc.keys, List.map_map]
    rfl
  refine .object ?_ ?_ ?_
  · intro name hname
    obtain ⟨part, hpart, rfl⟩ := List.mem_map.1 hname
    obtain ⟨hmem, hreq⟩ := List.mem_filter.1 hpart
    exact hkeys ▸ hrequired _ (hparts ▸ List.mem_map_of_mem hmem) hreq
  · intro hadditional name hname
    obtain ⟨field, hfield, rfl⟩ := hclosed hadditional name (hkeys ▸ hname)
    rw [← hparts] at hfield
    obtain ⟨part, hpart, rfl⟩ := List.mem_map.1 hfield
    exact List.mem_map.2 ⟨_, List.mem_map_of_mem hpart, rfl⟩
  · intro shown hshown node hnode
    obtain ⟨entry, hentry, rfl⟩ := List.mem_map.1 hshown
    obtain ⟨part, hpart, heq⟩ := List.mem_map.1 hnode
    obtain ⟨hname, rfl⟩ := Prod.mk.inj heq
    exact hentries entry hentry part hpart hname

end CompiledField

namespace FieldDefinition

variable {field : FieldDefinition} {path : FieldPath} {node : SchemaNode} {targets : List CastTarget}

/-- The cast of a well-typed value is one that the node of its field admits. -/
theorem admits_castValue (field : FieldDefinition) :
    ∀ {path : FieldPath} {node : SchemaNode} {targets : List CastTarget},
      field.compile path = .ok (node, targets) →
      ∀ value, field.WellTyped value → node.Admits (field.castValue value) := by
  induction field using induction with
  | step field ihcontent ihitems =>
    intro path node targets h value hvalue
    have hcompiled := compiled_of_compile h
    cases hvalue with
    | null hnullable =>
      rw [castValue_null]
      exact .null (hcompiled.nullable_eq.trans hnullable)
    | stored hstores => exact hcompiled.admits_of_stores hstores
    | loose hconverts => exact hcompiled.admits_of_converts hconverts
    | object hkind hrequired hclosed hentries =>
      obtain ⟨parts, hcontent, hnodup, rfl⟩ := hcompiled.of_rawObject hkind
      rw [CompiledField.names_eq_map_field, hcontent] at hnodup
      rw [castValue_document hkind, castEntries_eq_map]
      refine CompiledField.admits_collect hcontent (castEntry field.content) hrequired hclosed ?_
      intro entry hentry part hpart hname
      have hfield : part.field ∈ field.content := hcontent ▸ List.mem_map_of_mem hpart
      have hfound := hname ▸ find?_of_mem hnodup hfield
      rw [castEntry_of_find? hfound]
      exact ihcontent _ hfield part.compile_eq _ (hentries entry hentry _ hfound)
    | array hkind hitem hvalues =>
      obtain ⟨inner, hinner, rfl⟩ := hcompiled.of_array hkind hitem
      rw [castValue_array hkind hitem, castItems_eq_map]
      refine .array (fun _ h => nomatch h) (fun _ h => nomatch h) fun shown hshown => ?_
      obtain ⟨value, hvalue, rfl⟩ := List.mem_map.1 hshown
      exact ihitems _ hitem hinner value (hvalues value hvalue)

end FieldDefinition

/-! ## Bookkeeping fields -/

/-- A bookkeeping field that is stored in its own form is cast as its kind asks
for. -/
theorem FieldDefinition.castReserved_eq_castValue {field : FieldDefinition} {value : Bson}
    (hkind : Bookkeeping.reservedKind? field.name = some field.kind)
    (h : value = .null ∨ field.kind.Stores value) :
    castReserved field.name value = field.castValue value := by
  obtain rfl | h := h
  · rw [castValue_null]
    rfl
  obtain ⟨hname, hkind⟩ | ⟨hname, hkind⟩ | hkind := Bookkeeping.reservedKind?_cases hkind
  · rw [hkind] at h
    cases h with
    | objectId id =>
      rw [castValue_objectId hkind, castReserved, if_pos hname]
      rfl
  · rw [hkind] at h
    cases h with
    | date hyear =>
      rw [castValue_of_primitive? (by rw [hkind]; rfl), castReserved, if_pos hname]
      rfl
  · rw [hkind] at h
    cases h with
    | string text =>
      rw [castValue_of_primitive? (by rw [hkind]; rfl)]
      rfl

/-! ## Documents -/

namespace SchemaTree

/-- The cast of a well-typed document is one that the schema of its fields
admits. -/
theorem admits_castDocument {fields : List FieldDefinition} {tree : SchemaTree}
    (h : ofFields fields = .ok tree)
    (hkinds : ∀ field ∈ fields, Bookkeeping.isReserved field.name = true →
      Bookkeeping.reservedKind? field.name = some field.kind)
    {document : Document} (hdocument : FieldDefinition.WellTypedDocument fields document) :
    SchemaNode.Admits (.object tree.root.properties tree.root.required
      tree.root.additionalProperties {})
      (.document (FieldDefinition.castDocument fields document)) := by
  obtain ⟨parts, hparts, hnodup, rfl⟩ := ofFields_eq_ok h
  rw [CompiledField.names_eq_map_field, hparts] at hnodup
  refine CompiledField.admits_collect hparts
    (fun name value => if Bookkeeping.isReserved name then FieldDefinition.castReserved name value
      else FieldDefinition.castEntry fields name value)
    hdocument.required (fun h => nomatch h) ?_
  intro entry hentry part hpart hname
  have hfield : part.field ∈ fields := hparts ▸ List.mem_map_of_mem hpart
  have hfound := hname ▸ FieldDefinition.find?_of_mem hnodup hfield
  cases hreserved : Bookkeeping.isReserved entry.1 with
  | false =>
    rw [if_neg Bool.false_ne_true, FieldDefinition.castEntry_of_find? hfound]
    exact part.field.admits_castValue part.compile_eq _
      (hdocument.declared entry hentry _ hfound hreserved)
  | true =>
    have hstored := hdocument.reserved entry hentry _ hfound hreserved
    rw [← hname] at hreserved ⊢
    rw [if_pos rfl, FieldDefinition.castReserved_eq_castValue (hkinds _ hfield hreserved)
      (hstored.imp_left And.left)]
    refine part.field.admits_castValue part.compile_eq _ ?_
    obtain ⟨hnull, hnullable⟩ | hstores := hstored
    · rw [hnull]
      exact .null hnullable
    · exact .stored hstores

end SchemaTree

/-- The schema of a definition has a caster, and the caster turns every document
that may be stored in the collection into one that satisfies the rendered
schema. -/
theorem Caster.cast_validates {definition : CollectionDefinition} {tree : SchemaTree}
    (h : SchemaTree.ofDefinition definition = .ok tree) :
    ∃ caster, Caster.ofSchema tree = .ok caster ∧ ∀ document, definition.WellTyped document →
      JsonSchema.validates tree.toRaw (.document (caster.cast document)) = true := by
  obtain ⟨hfault, hfields⟩ := CollectionDefinition.ofDefinition_eq_ok h
  obtain ⟨caster, hcaster, hcast⟩ := Caster.exists_ofSchema hfields
  refine ⟨caster, hcaster, fun document hdocument => SchemaTree.validates_toRaw ?_⟩
  rw [hcast document]
  exact SchemaTree.admits_castDocument hfields
    (fun _ hfield => CollectionDefinition.reservedKind?_of_mem hfault hfield) hdocument

/-- Parcels, whose last update may be null, and whose stops may be null and say
nothing but the place. -/
def parcels : CollectionDefinition where
  name := "parcels"
  endpointBasePath := "/parcels"
  fields := [
    { name := "updatedAt", kind := .date, nullable := true },
    { name := "weight", kind := .number, required := true },
    .array "stops" {
      name := "", kind := .rawObject, nullable := true
      schema := some ⟨some [{ name := "place", kind := .geoPoint, required := true }], false⟩ }]

/-- A stored parcel. -/
def storedParcel : Document := [
  ("_id", .objectId ⟨7⟩), ("creatorId", .string "u1"), ("updaterId", .string "u1"),
  ("createdAt", .dateTime ⟨0⟩), ("updatedAt", .null), ("__STATE__", .string "PUBLIC"),
  ("weight", .string "3"), ("note", .minKey),
  ("stops", .array [.null, .document [("place", .document [("type", .string "Point"),
    ("coordinates", .array [.int32 4, .int64 5])])]])]

/-- The weight is a text that is cast to a number, the date of the last update and
the first of the stops are null where they may be, and the note is not declared. -/
theorem wellTyped_storedParcel : parcels.WellTyped storedParcel := by
  refine ⟨by decide, ?_, ?_⟩
  · intro entry hentry field hfield hreserved
    simp only [storedParcel, List.mem_cons, List.not_mem_nil, or_false] at hentry
    rcases hentry with rfl | rfl | rfl | rfl | rfl | rfl | rfl | rfl | rfl
    · exact Option.some.inj hfield ▸ .inr (.objectId ⟨7⟩)
    · exact Option.some.inj hfield ▸ .inr (.string "u1")
    · exact Option.some.inj hfield ▸ .inr (.string "u1")
    · exact Option.some.inj hfield ▸ .inr (.date (by decide))
    · exact Option.some.inj hfield ▸ .inl ⟨rfl, rfl⟩
    · exact Option.some.inj hfield ▸ .inr (.string "PUBLIC")
    -- The other three are no bookkeeping fields.
    all_goals exact absurd hreserved (by decide)
  · intro entry hentry field hfield hother
    simp only [storedParcel, List.mem_cons, List.not_mem_nil, or_false] at hentry
    rcases hentry with rfl | rfl | rfl | rfl | rfl | rfl | rfl | rfl | rfl
    iterate 6 exact absurd hother (by decide)
    · exact Option.some.inj hfield ▸ .loose ⟨.number, rfl, .number (by decide +kernel)⟩
    · have hnone : none = some field := hfield
      cases hnone
    · obtain rfl := Option.some.inj hfield
      refine .array rfl rfl fun stop hstop => ?_
      simp only [List.mem_cons, List.not_mem_nil, or_false] at hstop
      rcases hstop with rfl | rfl
      · exact .null rfl
      refine .object rfl (by decide) (by decide) ?_
      intro entry hentry inner hinner
      obtain rfl := List.mem_singleton.1 hentry
      obtain rfl := Option.some.inj hinner
      exact .stored (.geoPoint rfl rfl (by decide) (by decide))

/-- The stored parcel does not satisfy the rendered schema as it is; cast, it does. -/
theorem Caster.cast_validates_parcel :
    ∃ tree caster, SchemaTree.ofDefinition parcels = .ok tree ∧ Caster.ofSchema tree = .ok caster ∧
      parcels.WellTyped storedParcel ∧
      JsonSchema.validates tree.toRaw (.document storedParcel) = false ∧
      JsonSchema.validates tree.toRaw (.document (caster.cast storedParcel)) = true := by
  obtain ⟨caster, hcaster, hvalidates⟩ :=
    cast_validates (rfl : SchemaTree.ofDefinition parcels = .ok _)
  exact ⟨_, caster, rfl, hcaster, wellTyped_storedParcel, by decide +kernel,
    hvalidates storedParcel wellTyped_storedParcel⟩

end DocGate
