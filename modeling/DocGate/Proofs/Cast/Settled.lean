import DocGate.Proofs.Bson.Equality
import DocGate.Proofs.Cast.Compilation
import DocGate.Proofs.Schema.Bookkeeping

/-!
# Casting twice

A document that has been cast may be cast again, for instance by a second layer
that has the same schema, and nothing changes.  The proof does not compare two
casts with each other.  It says what a value looks like at rest, that every cast
brings values to rest, and that a cast keeps what is at rest.

* `Primitive.isSettled` and `CastKind.isSettled` list the single values at rest,
  without the functions that cast them.
* `CastPlan.Settled` is the same for a value with values in it.
  `CastPlan.settled_apply` is the induction on values and
  `CastPlan.apply_of_settled` the one on what is at rest.
* `Caster.cast_cast` is about whole documents, with the casts of the bookkeeping
  fields before those of the plan.  A plan makes no identifiers and no dates, so
  the first casts find nothing to do the second time.

The main result is `Caster.cast_idempotent`, about the casters of schemas.
-/

namespace DocGate

/-! ## Single values -/

namespace Primitive

/-- Whether a value is one that the coercion to a primitive type leaves: no text
that spells a value of the type, and no value that such a text or value is made
from. -/
def isSettled : Primitive → Bson → Bool
  | .number, .string text => (numberOfText? text).isNone
  | .number, .bool _ => false
  | .boolean, .string text => (boolOfText? text).isNone
  | .boolean, .int32 n => (boolOfInt? n.toInt).isNone
  | .boolean, .int64 n => (boolOfInt? n.toInt).isNone
  | .string, .int32 _ => false
  | .string, .int64 _ => false
  | .string, .double d => !d.isFinite
  | .string, .bool _ => false
  | .dateTime, .dateTime _ => false
  | _, _ => true

/-- What a text spells as a number is an integer or a double. -/
theorem numberOfText?_cases {text : String} {value : Bson} (h : numberOfText? text = some value) :
    (∃ n, value = .int32 n) ∨ (∃ n, value = .int64 n) ∨ ∃ d, value = .double d := by
  simp only [numberOfText?] at h
  split at h
  · rename_i own hown
    obtain ⟨n, -, hn⟩ := Option.bind_eq_some_iff.1 hown
    obtain rfl := Option.some.inj h
    unfold Bson.ofInt? at hn
    split at hn
    · exact .inl ⟨_, (Option.some.inj hn).symm⟩
    · split at hn
      · exact .inr (.inl ⟨_, (Option.some.inj hn).symm⟩)
      · cases hn
  · split at h
    · split at h
      · exact .inr (.inr ⟨_, (Option.some.inj h).symm⟩)
      · cases h
    · cases h

theorem isSettled_coerce_number (value : Bson) :
    number.isSettled (number.coerce value) = true := by
  cases value with
  | string text =>
    rw [coerce]
    cases hnumber : numberOfText? text with
    | none =>
      rw [Option.getD_none, isSettled, hnumber]
      rfl
    | some made => obtain ⟨n, rfl⟩ | ⟨n, rfl⟩ | ⟨d, rfl⟩ := numberOfText?_cases hnumber <;> rfl
  | _ => rfl

theorem isSettled_coerce_boolean (value : Bson) :
    boolean.isSettled (boolean.coerce value) = true := by
  cases value with
  | string text => cases h : boolOfText? text <;> simp [coerce, isSettled, h]
  | int32 n => cases h : boolOfInt? n.toInt <;> simp [coerce, isSettled, h]
  | int64 n => cases h : boolOfInt? n.toInt <;> simp [coerce, isSettled, h]
  | _ => rfl

/-- A coercion leaves a value at rest. -/
theorem isSettled_coerce (target : Primitive) (value : Bson) :
    target.isSettled (target.coerce value) = true := by
  cases target with
  | number => exact isSettled_coerce_number value
  | boolean => exact isSettled_coerce_boolean value
  | dateTime => cases value <;> rfl
  | string =>
    cases value with
    | double d => cases h : d.isFinite <;> simp [coerce, isSettled, h]
    | _ => rfl

/-- A coercion keeps a value at rest. -/
theorem coerce_of_isSettled {target : Primitive} {value : Bson}
    (h : target.isSettled value = true) : target.coerce value = value := by
  cases target <;> cases value <;> simp_all [coerce, isSettled]

/-- A coerced value is not coerced further. -/
theorem coerce_coerce (target : Primitive) (value : Bson) :
    target.coerce (target.coerce value) = target.coerce value :=
  coerce_of_isSettled (isSettled_coerce target value)

end Primitive

namespace CastKind

/-- Whether a value is one that a cast of its own leaves. -/
def isSettled : CastKind → Bson → Bool
  | .objectId, .objectId _ => false
  | .geoPoint, .document entries => (pointCoordinates? entries).isNone
  | _, _ => true

/-- A cast of its own leaves a value at rest.  The coordinates of a point are an
array, and arrays are no points. -/
theorem isSettled_apply (kind : CastKind) (value : Bson) :
    kind.isSettled (kind.apply value) = true := by
  cases kind with
  | objectId => cases value <;> rfl
  | geoPoint =>
    cases value with
    | document entries =>
      rw [apply]
      cases h : pointCoordinates? entries with
      | some coordinates => rfl
      | none => rw [isSettled, h]; rfl
    | _ => rfl

/-- A cast of its own keeps a value at rest. -/
theorem apply_of_isSettled {kind : CastKind} {value : Bson} (h : kind.isSettled value = true) :
    kind.apply value = value := by
  cases kind with
  | objectId =>
    cases value with
    | objectId id => cases h
    | _ => rfl
  | geoPoint =>
    cases value with
    | document entries =>
      rw [isSettled, Option.isNone_iff_eq_none] at h
      rw [apply, h]
    | _ => rfl

end CastKind

/-! ## Values with values in them -/

namespace CastPlan

/-- The values that a plan leaves. -/
inductive Settled : CastPlan → Bson → Prop
  | keep (value : Bson) : Settled .keep value
  | coerce {target : Primitive} {value : Bson} (h : target.isSettled value = true) :
      Settled (.coerce target) value
  | special {kind : CastKind} {value : Bson} (h : kind.isSettled value = true) :
      Settled (.special kind) value
  | object {properties : Assoc CastPlan} {entries : Document}
      (h : ∀ entry ∈ entries, ∀ plan, properties.get? entry.1 = some plan → Settled plan entry.2) :
      Settled (.object properties) (.document entries)
  | array {plan : CastPlan} {items : List Bson} (h : ∀ item ∈ items, Settled plan item) :
      Settled (.array plan) (.array items)
  /-- A plan for an object does nothing with a value that is no document. -/
  | noDocument {properties : Assoc CastPlan} {value : Bson}
      (h : ∀ entries, value ≠ .document entries) : Settled (.object properties) value
  /-- A plan for an array does nothing with a value that is no array. -/
  | noArray {plan : CastPlan} {value : Bson} (h : ∀ items, value ≠ .array items) :
      Settled (.array plan) value

theorem apply_keep (value : Bson) : keep.apply value = value := by
  cases value <;> rfl

theorem apply_object_of_ne (properties : Assoc CastPlan) {value : Bson}
    (h : ∀ entries, value ≠ .document entries) : (object properties).apply value = value := by
  cases value with
  | document entries => exact absurd rfl (h entries)
  | _ => rfl

theorem apply_array_of_ne (plan : CastPlan) {value : Bson}
    (h : ∀ items, value ≠ .array items) : (array plan).apply value = value := by
  cases value with
  | array items => exact absurd rfl (h items)
  | _ => rfl

/-- A plan keeps a value at rest. -/
theorem apply_of_settled {plan : CastPlan} {value : Bson} (h : Settled plan value) :
    plan.apply value = value := by
  induction h with
  | keep value => exact apply_keep value
  | coerce h => rw [apply_coerce, Primitive.coerce_of_isSettled h]
  | special h => rw [apply_special, CastKind.apply_of_isSettled h]
  | @object properties entries _ ih =>
    rw [apply, applyEntries_eq_map]
    refine congrArg Bson.document (Eq.trans (List.map_congr_left fun entry hentry => ?_)
      (List.map_id' entries))
    cases hplan : properties.get? entry.1 with
    | none => rfl
    | some plan => exact congrArg (Prod.mk entry.1) (ih entry hentry plan hplan)
  | array _ ih => rw [apply, applyItems_eq_map, List.map_congr_left ih, List.map_id']
  | noDocument h => exact apply_object_of_ne _ h
  | noArray h => exact apply_array_of_ne _ h

/-- A plan brings every value to rest. -/
theorem settled_apply (value : Bson) : ∀ plan : CastPlan, Settled plan (plan.apply value) := by
  -- The induction is on the value: a plan may be deeper than the value, and then
  -- what is left of the plan meets values of another shape.
  induction value using Bson.induction with
  | scalar value hscalar =>
    have hdocument : ∀ entries, value ≠ .document entries := by
      rintro entries rfl
      cases hscalar
    have harray : ∀ items, value ≠ .array items := by
      rintro items rfl
      cases hscalar
    intro plan
    cases plan with
    | keep => exact .keep _
    | coerce target => exact apply_coerce target value ▸ .coerce (target.isSettled_coerce value)
    | special kind => exact apply_special kind value ▸ .special (kind.isSettled_apply value)
    | object properties =>
      rw [apply_object_of_ne properties hdocument]
      exact .noDocument hdocument
    | array plan =>
      rw [apply_array_of_ne plan harray]
      exact .noArray harray
  | array items ih =>
    intro plan
    cases plan with
    | keep => exact .keep _
    | coerce target => exact .coerce (target.isSettled_coerce (.array items))
    | special kind => exact .special (kind.isSettled_apply (.array items))
    | object properties => exact .noDocument fun _ heq => Bson.noConfusion heq
    | array plan =>
      rw [apply, applyItems_eq_map]
      refine .array fun item hitem => ?_
      obtain ⟨stored, hstored, rfl⟩ := List.mem_map.1 hitem
      exact ih stored hstored plan
  | document entries ih =>
    intro plan
    cases plan with
    | keep => exact .keep _
    | coerce target => exact .coerce (target.isSettled_coerce (.document entries))
    | special kind => exact .special (kind.isSettled_apply (.document entries))
    | array plan => exact .noArray fun _ heq => Bson.noConfusion heq
    | object properties =>
      rw [apply, applyEntries_eq_map]
      refine .object fun entry hentry plan hplan => ?_
      obtain ⟨stored, hstored, rfl⟩ := List.mem_map.1 hentry
      simp only at hplan ⊢
      rw [hplan]
      exact ih stored hstored plan

end CastPlan

/-! ## Documents -/

/-- Whether a value is of a type that no cast makes, because casts only take
values of this type away. -/
def Bson.isStoredOnly : Bson → Bool
  | .objectId _ => true
  | .dateTime _ => true
  | _ => false

/-- The casts of bookkeeping fields concern identifiers and dates. -/
theorem FieldDefinition.castReserved_of_not_storedOnly {value : Bson}
    (h : value.isStoredOnly = false) (name : String) : castReserved name value = value := by
  cases value with
  | objectId id => cases h
  | dateTime date => cases h
  | _ => rfl

/-- The cast of a bookkeeping field leaves a value at rest. -/
theorem FieldDefinition.castReserved_castReserved (name : String) (value : Bson) :
    castReserved name (castReserved name value) = castReserved name value := by
  cases value with
  | objectId id =>
    by_cases hid : name = Bookkeeping.idField
    · rw [castReserved, if_pos hid]
      rfl
    · rw [castReserved, if_neg hid, castReserved, if_neg hid]
  | dateTime date =>
    by_cases hdate : name = Bookkeeping.createdAtField ∨ name = Bookkeeping.updatedAtField
    · rw [castReserved, if_pos hdate]
      rfl
    · rw [castReserved, if_neg hdate, castReserved, if_neg hdate]
  | _ => rfl

/-- A coercion makes no identifiers and no dates. -/
theorem Primitive.coerce_eq_or_not_storedOnly (target : Primitive) (value : Bson) :
    target.coerce value = value ∨ (target.coerce value).isStoredOnly = false := by
  cases value with
  | objectId id => exact .inl (by cases target <;> rfl)
  | dateTime date =>
    cases target with
    | dateTime => exact .inr rfl
    | _ => exact .inl rfl
  | string text =>
    cases target with
    | number =>
      rw [coerce]
      cases hnumber : numberOfText? text with
      | none => exact .inl rfl
      | some made =>
        right
        obtain ⟨n, rfl⟩ | ⟨n, rfl⟩ | ⟨d, rfl⟩ := numberOfText?_cases hnumber <;> rfl
    | boolean => cases h : boolOfText? text <;> simp [coerce, h, Bson.isStoredOnly]
    | _ => exact .inl rfl
  | int32 n => cases target <;> cases h : boolOfInt? n.toInt <;> simp [coerce, h, Bson.isStoredOnly]
  | int64 n => cases target <;> cases h : boolOfInt? n.toInt <;> simp [coerce, h, Bson.isStoredOnly]
  | double d => cases target <;> cases h : d.isFinite <;> simp [coerce, h, Bson.isStoredOnly]
  | bool truth => cases target <;> simp [coerce, Bson.isStoredOnly]
  | _ => exact .inl (by cases target <;> rfl)

/-- A cast of its own makes no identifiers and no dates. -/
theorem CastKind.apply_eq_or_not_storedOnly (kind : CastKind) (value : Bson) :
    kind.apply value = value ∨ (kind.apply value).isStoredOnly = false := by
  cases kind with
  | objectId =>
    cases value with
    | objectId id => exact .inr rfl
    | _ => exact .inl rfl
  | geoPoint =>
    cases value with
    | document entries =>
      rw [apply]
      cases pointCoordinates? entries with
      | some coordinates => exact .inr rfl
      | none => exact .inl rfl
    | _ => exact .inl rfl

/-- A plan makes no identifiers and no dates. -/
theorem CastPlan.apply_eq_or_not_storedOnly (plan : CastPlan) (value : Bson) :
    plan.apply value = value ∨ (plan.apply value).isStoredOnly = false := by
  cases plan with
  | keep => exact .inl (apply_keep value)
  | coerce target =>
    rw [apply_coerce]
    exact target.coerce_eq_or_not_storedOnly value
  | special kind =>
    rw [apply_special]
    exact kind.apply_eq_or_not_storedOnly value
  | object properties =>
    cases value with
    | document entries => exact .inr rfl
    | _ => exact .inl rfl
  | array plan =>
    cases value with
    | array items => exact .inr rfl
    | _ => exact .inl rfl

namespace Caster

/-- The documents that a caster leaves: the bookkeeping casts keep every entry, and
so does the plan for its name. -/
structure Settled (caster : Caster) (document : Document) : Prop where
  reserved : ∀ entry ∈ document, FieldDefinition.castReserved entry.1 entry.2 = entry.2
  planned : CastPlan.Settled (.object caster.properties) (.document document)

theorem castBookkeeping_eq_map (document : Document) :
    castBookkeeping document =
      document.map fun entry => (entry.1, FieldDefinition.castReserved entry.1 entry.2) := by
  rw [castBookkeeping]
  refine List.map_congr_left fun entry _ => ?_
  rw [castBookkeepingEntry_eq]

/-- The entries of a cast document are cast one by one. -/
theorem cast_eq_apply (caster : Caster) (document : Document) :
    Bson.document (caster.cast document) =
      (CastPlan.object caster.properties).apply (.document (castBookkeeping document)) := rfl

/-- What a plan makes of a value that the bookkeeping casts keep, they keep as
well. -/
theorem castReserved_apply {name : String} {value : Bson}
    (h : FieldDefinition.castReserved name value = value) (plan : CastPlan) :
    FieldDefinition.castReserved name (plan.apply value) = plan.apply value := by
  rcases plan.apply_eq_or_not_storedOnly value with hkept | hmade
  · rw [hkept, h]
  · exact FieldDefinition.castReserved_of_not_storedOnly hmade name

/-- A cast brings every document to rest. -/
theorem settled_cast (caster : Caster) (document : Document) :
    caster.Settled (caster.cast document) := by
  refine ⟨fun entry hentry => ?_, ?_⟩
  · rw [cast, castBookkeeping_eq_map, CastPlan.applyEntries_eq_map, List.map_map] at hentry
    obtain ⟨⟨name, value⟩, -, rfl⟩ := List.mem_map.1 hentry
    have hreserved := FieldDefinition.castReserved_castReserved name value
    simp only [Function.comp]
    cases caster.properties.get? name with
    | none => exact hreserved
    | some plan => exact castReserved_apply hreserved plan
  · rw [cast_eq_apply]
    exact CastPlan.settled_apply _ _

/-- A cast keeps a document at rest. -/
theorem cast_of_settled {caster : Caster} {document : Document} (h : caster.Settled document) :
    caster.cast document = document := by
  have hreserved : castBookkeeping document = document := by
    rw [castBookkeeping_eq_map]
    refine (List.map_congr_left fun entry hentry => ?_).trans (List.map_id' document)
    rw [h.reserved entry hentry]
  have hplanned := CastPlan.apply_of_settled h.planned
  rw [← hreserved, ← cast_eq_apply, hreserved] at hplanned
  exact Bson.document.inj hplanned

/-- A document that has been cast is not cast further, whatever the caster is. -/
theorem cast_cast (caster : Caster) (document : Document) :
    caster.cast (caster.cast document) = caster.cast document :=
  cast_of_settled (caster.settled_cast document)

/-- A list of fields that compiles and a definition that compiles both have a
caster, and casting a cast document again changes nothing. -/
theorem cast_idempotent {tree : SchemaTree}
    (h : (∃ fields, SchemaTree.ofFields fields = .ok tree) ∨
      ∃ definition, SchemaTree.ofDefinition definition = .ok tree) :
    ∃ caster, Caster.ofSchema tree = .ok caster ∧
      ∀ document, caster.cast (caster.cast document) = caster.cast document := by
  have hfields : ∃ fields, SchemaTree.ofFields fields = .ok tree := by
    rcases h with hfields | ⟨definition, hdefinition⟩
    · exact hfields
    · exact ⟨_, (CollectionDefinition.ofDefinition_eq_ok hdefinition).2⟩
  obtain ⟨fields, hcompiled⟩ := hfields
  obtain ⟨caster, hcaster, -⟩ := exists_ofSchema hcompiled
  exact ⟨caster, hcaster, caster.cast_cast⟩

/-- Fields of most kinds, one of them inside an array of objects. -/
def orderFields : List FieldDefinition := [
  { name := "label", kind := .string },
  { name := "price", kind := .number },
  { name := "paid", kind := .boolean },
  { name := "due", kind := .date },
  .array "lines" (FieldDefinition.rawObject "" [
    { name := "place", kind := .geoPoint },
    { name := "item", kind := .objectId }])]

/-- Each value changes with the first cast and none with the second. -/
theorem cast_idempotent_order :
    ∃ tree caster, SchemaTree.ofFields orderFields = .ok tree ∧ ofSchema tree = .ok caster ∧
      ∃ shown, shown = caster.cast [("_id", .objectId ⟨7⟩), ("label", .bool true),
          ("price", .string " +042 "), ("paid", .int32 1), ("due", .dateTime ⟨0⟩),
          ("lines", .array [.document [("item", .objectId ⟨8⟩), ("place", .document
            [("type", .string "Point"), ("coordinates", .array [.string "1"])])]])] ∧
        shown = [("_id", .string "000000000000000000000007"), ("label", .string "true"),
          ("price", .int32 42), ("paid", .bool true), ("due", .string "1970-01-01T00:00:00.000Z"),
          ("lines", .array [.document [("item", .string "000000000000000000000008"),
            ("place", .array [.string "1"])]])] ∧
        caster.cast shown = shown := by
  obtain ⟨caster, hcaster, htwice⟩ :=
    cast_idempotent (.inl ⟨orderFields, (rfl : SchemaTree.ofFields orderFields = .ok _)⟩)
  refine ⟨_, caster, rfl, hcaster, _, rfl, ?_, htwice _⟩
  cases hcaster
  rfl

end Caster

end DocGate
