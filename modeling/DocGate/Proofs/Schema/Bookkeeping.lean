import Mathlib.Data.List.Nodup
import DocGate.Proofs.Schema.WellFormed

/-!
# Bookkeeping fields in a definition

Every bookkeeping field has a kind of its own, and a definition that has a schema
does not change it, whether it declares the field or omits it
(`CollectionDefinition.reservedKind?_of_mem`).

The fields that a definition omits are put before those that it declares.  They are
well formed and their names are new, so whether the whole has a schema is decided by
the declared fields (`CollectionDefinition.exists_ofDefinition_iff`), and a definition
of the whole omits nothing (`CollectionDefinition.allFields_of_allFields`).
-/

namespace DocGate

namespace Bookkeeping

/-- Every bookkeeping field has a kind. -/
theorem exists_reservedKind? {name : String} (h : isReserved name = true) :
    ∃ kind, reservedKind? name = some kind := by
  obtain ⟨field, hfield, hname⟩ := List.mem_map.1 (List.contains_iff_mem.1 h)
  have hfound : (fields.find? fun field => field.name = name).isSome = true :=
    List.find?_isSome.2 ⟨field, hfield, decide_eq_true hname⟩
  obtain ⟨own, hown⟩ := Option.isSome_iff_exists.1 hfound
  exact ⟨own.kind, by rw [reservedKind?, hown, Option.map_some]⟩

theorem isReserved_of_mem {field : FieldDefinition} (h : field ∈ fields) :
    isReserved field.name = true :=
  List.contains_iff_mem.2 (List.mem_map_of_mem h)

/-- The names of the bookkeeping fields are different, so each is found by its name. -/
theorem reservedKind?_of_mem_fields :
    ∀ field ∈ fields, reservedKind? field.name = some field.kind := by
  decide

/-- The identifier, the two dates, and the fields that hold texts. -/
theorem reservedKind?_cases {name : String} {kind : FieldKind}
    (h : reservedKind? name = some kind) :
    name = idField ∧ kind = .objectId ∨
      (name = createdAtField ∨ name = updatedAtField) ∧ kind = .date ∨ kind = .string := by
  have hfields : ∀ field ∈ fields, field.name = idField ∧ field.kind = .objectId ∨
      (field.name = createdAtField ∨ field.name = updatedAtField) ∧ field.kind = .date ∨
        field.kind = .string := by
    decide
  obtain ⟨field, hfound, rfl⟩ := Option.map_eq_some_iff.1 h
  obtain rfl : field.name = name := by simpa using List.find?_some hfound
  exact hfields field (List.mem_of_find?_eq_some hfound)

end Bookkeeping

namespace CollectionDefinition

variable {definition : CollectionDefinition}

/-- The bookkeeping fields are among the fields of every collection. -/
theorem mem_names_of_isReserved (definition : CollectionDefinition) {name : String}
    (h : Bookkeeping.isReserved name = true) :
    name ∈ (definition.omittedFields ++ definition.fields).map FieldDefinition.name := by
  obtain ⟨field, hfield, rfl⟩ := List.mem_map.1 (List.contains_iff_mem.1 h)
  rw [List.map_append, List.mem_append]
  by_cases hdeclared : field.name ∈ definition.fields.map FieldDefinition.name
  · exact .inr hdeclared
  · refine .inl (List.mem_map_of_mem (List.mem_filter.2 ⟨hfield, ?_⟩))
    simpa using hdeclared

/-- In a definition without a fault every bookkeeping field has its own kind,
whether it is declared or not. -/
theorem reservedKind?_of_mem (h : definition.reservedFault? = none) {field : FieldDefinition}
    (hfield : field ∈ definition.omittedFields ++ definition.fields)
    (hreserved : Bookkeeping.isReserved field.name = true) :
    Bookkeeping.reservedKind? field.name = some field.kind := by
  rcases List.mem_append.1 hfield with homitted | hdeclared
  · exact Bookkeeping.reservedKind?_of_mem_fields field (List.mem_filter.1 homitted).1
  · obtain ⟨kind, hkind⟩ := Bookkeeping.exists_reservedKind? hreserved
    have hnone := List.findSome?_eq_none_iff.1 h field hdeclared
    simp only [hkind] at hnone
    rw [hkind]
    split at hnone
    · rename_i heq
      rw [heq]
    · cases hnone

/-- A definition with a schema has no fault, and its fields are compiled to the
schema. -/
theorem ofDefinition_eq_ok {tree : SchemaTree} (h : SchemaTree.ofDefinition definition = .ok tree) :
    definition.reservedFault? = none ∧
      SchemaTree.ofFields (definition.omittedFields ++ definition.fields) = .ok tree := by
  rw [SchemaTree.ofDefinition, allFields] at h
  cases hfault : definition.reservedFault? with
  | some fault => simp [hfault] at h
  | none =>
    simp only [hfault] at h
    cases hfields : SchemaTree.ofFields (definition.omittedFields ++ definition.fields) with
    | error fault => simp [hfields] at h
    | ok own =>
      simp only [hfields, Except.ok.injEq] at h
      exact ⟨rfl, by rw [h]⟩

/-! ## All fields of a collection -/

/-- The declared fields that are bookkeeping fields by name are so by kind. -/
def KeepsReservedKinds (definition : CollectionDefinition) : Prop :=
  ∀ field ∈ definition.fields, ∀ reserved ∈ Bookkeeping.fields,
    field.name = reserved.name → field.kind = reserved.kind

theorem reservedFault?_eq_none_iff :
    definition.reservedFault? = none ↔ definition.KeepsReservedKinds := by
  rw [reservedFault?, List.findSome?_eq_none_iff]
  constructor
  · intro h field hfield reserved hreserved hname
    have hnone := h field hfield
    rw [hname, Bookkeeping.reservedKind?_of_mem_fields reserved hreserved] at hnone
    by_contra hkind
    simp [hkind] at hnone
  · intro h field hfield
    cases hkind : Bookkeeping.reservedKind? field.name with
    | none => rfl
    | some kind =>
      obtain ⟨reserved, hfound, rfl⟩ := Option.map_eq_some_iff.1 hkind
      have hname : reserved.name = field.name := by simpa using List.find?_some hfound
      exact if_pos (h field hfield reserved (List.mem_of_find?_eq_some hfound) hname.symm)

theorem allFields_eq_ok_iff {fields : List FieldDefinition} : definition.allFields = .ok fields ↔
    definition.reservedFault? = none ∧ fields = definition.omittedFields ++ definition.fields := by
  rw [allFields]
  cases definition.reservedFault? <;> simp [eq_comm]

/-- A bookkeeping field is omitted if no declared field has its name. -/
theorem mem_omittedFields_iff {field : FieldDefinition} : field ∈ definition.omittedFields ↔
    field ∈ Bookkeeping.fields ∧ field.name ∉ definition.fields.map FieldDefinition.name := by
  rw [omittedFields, List.mem_filter, Bool.not_eq_true', ← Bool.not_eq_true, List.contains_iff_mem]

/-- Omitted fields are fit to stand before the declared ones, as their names are
different and no declared field has one of them. -/
theorem namesFit_append_iff : FieldDefinition.NamesFit
      (definition.omittedFields ++ definition.fields) ↔
    FieldDefinition.NamesFit definition.fields := by
  have hnonempty : ∀ field ∈ Bookkeeping.fields, field.name ≠ "" := by decide
  have hnodup : (Bookkeeping.fields.map FieldDefinition.name).Nodup := by decide
  constructor
  · intro ⟨hnames, hdistinct⟩
    rw [List.map_append, List.nodup_append] at hdistinct
    exact ⟨fun field hfield => hnames field (List.mem_append_right _ hfield), hdistinct.2.1⟩
  · intro ⟨hnames, hdistinct⟩
    refine ⟨List.forall_mem_append.2 ⟨fun field hfield =>
      hnonempty field (mem_omittedFields_iff.1 hfield).1, hnames⟩, ?_⟩
    rw [List.map_append, List.nodup_append]
    refine ⟨hnodup.sublist (List.filter_sublist.map _), hdistinct, ?_⟩
    intro name hname other hother heq
    obtain ⟨field, hfield, rfl⟩ := List.mem_map.1 hname
    exact (mem_omittedFields_iff.1 hfield).2 (heq ▸ hother)

/-- The fields of a collection are well formed if the declared ones are. -/
theorem wellFormed_append_iff : FieldDefinition.WellFormed
      (definition.omittedFields ++ definition.fields) ↔
    FieldDefinition.WellFormed definition.fields := by
  have hplain : ∀ field ∈ Bookkeeping.fields,
      field.kind ≠ .rawObject ∧ field.kind ≠ .array := by decide
  constructor
  · intro ⟨hnames, hsound⟩
    exact ⟨namesFit_append_iff.1 hnames,
      fun field hfield => hsound field (List.mem_append_right _ hfield)⟩
  · intro ⟨hnames, hsound⟩
    refine ⟨namesFit_append_iff.2 hnames, List.forall_mem_append.2 ⟨fun field hfield => ?_, hsound⟩⟩
    obtain ⟨hobject, harray⟩ := hplain field (mem_omittedFields_iff.1 hfield).1
    exact FieldDefinition.isSound_of_plain hobject harray

/-- A definition has a schema if it keeps the kinds of the bookkeeping fields and the
declared fields have a schema. -/
theorem exists_ofDefinition_iff : (∃ tree, SchemaTree.ofDefinition definition = .ok tree) ↔
    definition.KeepsReservedKinds ∧ ∃ tree, SchemaTree.ofFields definition.fields = .ok tree := by
  rw [← reservedFault?_eq_none_iff, SchemaTree.exists_ofFields_iff, ← wellFormed_append_iff,
    ← SchemaTree.exists_ofFields_iff]
  constructor
  · intro ⟨tree, h⟩
    obtain ⟨hfault, hfields⟩ := ofDefinition_eq_ok h
    exact ⟨hfault, tree, hfields⟩
  · intro ⟨hfault, tree, hfields⟩
    refine ⟨tree, ?_⟩
    rw [SchemaTree.ofDefinition, allFields_eq_ok_iff.2 ⟨hfault, rfl⟩]
    simp only [hfields]

/-- A field of a collection that is a bookkeeping field by name is so by kind. -/
theorem kind_eq_of_mem (h : definition.reservedFault? = none) {field reserved : FieldDefinition}
    (hfield : field ∈ definition.omittedFields ++ definition.fields)
    (hreserved : reserved ∈ Bookkeeping.fields) (hname : field.name = reserved.name) :
    field.kind = reserved.kind := by
  have hkind := reservedKind?_of_mem h hfield
    (hname ▸ Bookkeeping.isReserved_of_mem hreserved)
  rw [hname, Bookkeeping.reservedKind?_of_mem_fields reserved hreserved] at hkind
  exact (Option.some.inj hkind).symm

/-- The fields of a collection are all the fields of a definition that declares
them. -/
theorem allFields_of_allFields {fields : List FieldDefinition}
    (h : definition.allFields = .ok fields) :
    { definition with fields }.allFields = .ok fields := by
  obtain ⟨hfault, rfl⟩ := allFields_eq_ok_iff.1 h
  refine allFields_eq_ok_iff.2 ⟨reservedFault?_eq_none_iff.2 ?_, ?_⟩
  · intro field hfield reserved hreserved hname
    exact kind_eq_of_mem hfault hfield hreserved hname
  · -- Every bookkeeping field is declared now, so none is omitted.
    have hnone : omittedFields
        { definition with fields := definition.omittedFields ++ definition.fields } = [] := by
      refine List.eq_nil_iff_forall_not_mem.2 fun field hfield => ?_
      obtain ⟨hreserved, hnew⟩ := mem_omittedFields_iff.1 hfield
      exact hnew (mem_names_of_isReserved definition (Bookkeeping.isReserved_of_mem hreserved))
    rw [hnone, List.nil_append]

/-- What a collection and its schema say of the bookkeeping fields, of which `omitted`
are those that are not declared. -/
structure Carries (definition : CollectionDefinition) (omitted : List FieldDefinition)
    (tree : SchemaTree) : Prop where
  all : definition.allFields = .ok (omitted ++ definition.fields)
  mirrors : tree.Mirrors (omitted ++ definition.fields)
  ordered : omitted.Sublist Bookkeeping.fields
  missing : ∀ reserved ∈ Bookkeeping.fields,
    reserved ∈ omitted ↔ reserved.name ∉ definition.fields.map FieldDefinition.name
  required : ∀ field ∈ omitted, field.required = true ∧ field.name ∈ tree.root.required
  once : ∀ reserved ∈ Bookkeeping.fields, tree.fieldNames.count reserved.name = 1
  kinds : ∀ reserved ∈ Bookkeeping.fields, ∃ field ∈ omitted ++ definition.fields,
    field.name = reserved.name ∧ field.kind = reserved.kind ∧
      ∃ node, tree.property? reserved.name = some node ∧ field.Mirrors node

theorem carries_of_ofDefinition {tree : SchemaTree}
    (h : SchemaTree.ofDefinition definition = .ok tree) :
    definition.Carries definition.omittedFields tree := by
  obtain ⟨hfault, hfields⟩ := ofDefinition_eq_ok h
  have hmirrors := SchemaTree.mirrors_of_ofFields hfields
  have hnodup := (SchemaTree.exists_ofFields_iff.1 ⟨tree, hfields⟩).names.distinct
  have hmem : ∀ reserved ∈ Bookkeeping.fields, reserved.name ∈
      (definition.omittedFields ++ definition.fields).map FieldDefinition.name :=
    fun reserved hreserved => mem_names_of_isReserved definition
      (Bookkeeping.isReserved_of_mem hreserved)
  have hrequired : ∀ field ∈ Bookkeeping.fields, field.required = true := by decide
  refine ⟨allFields_eq_ok_iff.2 ⟨hfault, rfl⟩, hmirrors, List.filter_sublist, ?_, ?_, ?_, ?_⟩
  · intro reserved hreserved
    exact mem_omittedFields_iff.trans (and_iff_right hreserved)
  · intro field hfield
    have hown := hrequired field (mem_omittedFields_iff.1 hfield).1
    refine ⟨hown, ?_⟩
    rw [hmirrors.required]
    exact List.mem_map_of_mem (List.mem_filter.2 ⟨List.mem_append_left _ hfield, hown⟩)
  · intro reserved hreserved
    rw [hmirrors.names]
    exact List.count_eq_one_of_mem hnodup (hmem reserved hreserved)
  · intro reserved hreserved
    obtain ⟨field, hfield, hname⟩ := List.mem_map.1 (hmem reserved hreserved)
    obtain ⟨node, hnode, hmirror⟩ := SchemaTree.exists_property? hfields hfield
    exact ⟨field, hfield, hname, kind_eq_of_mem hfault hfield hreserved hname, node,
      hname ▸ hnode, hmirror⟩

/-- A definition has a schema if its declared fields have one and none of them takes the
name of a bookkeeping field for another kind.  The schema then has every bookkeeping
field once, the omitted ones first and required, and a definition that declares all of
these fields has the same fields. -/
theorem carries_bookkeeping (definition : CollectionDefinition) :
    ((∃ tree, SchemaTree.ofDefinition definition = .ok tree) ↔
      definition.KeepsReservedKinds ∧
        ∃ tree, SchemaTree.ofFields definition.fields = .ok tree) ∧
      (∀ tree, SchemaTree.ofDefinition definition = .ok tree →
        ∃ omitted, definition.Carries omitted tree) ∧
      ∀ fields, definition.allFields = .ok fields →
        { definition with fields }.allFields = .ok fields :=
  ⟨exists_ofDefinition_iff, fun _ h => ⟨_, carries_of_ofDefinition h⟩,
    fun _ h => allFields_of_allFields h⟩

/-- A journal that declares two of the bookkeeping fields among its own, one of them as
not required. -/
def journal : CollectionDefinition where
  name := "journal"
  endpointBasePath := "/journal"
  fields := [
    { name := "title", kind := .string },
    { name := "updatedAt", kind := .date, nullable := true },
    { name := "_id", kind := .objectId, required := true }]

/-- The other bookkeeping fields come first in the journal. -/
theorem carries_bookkeeping_journal :
    ∃ tree fields, SchemaTree.ofDefinition journal = .ok tree ∧ journal.allFields = .ok fields ∧
      tree.fieldNames =
        ["creatorId", "updaterId", "createdAt", "__STATE__", "title", "updatedAt", "_id"] ∧
      (∃ omitted, journal.Carries omitted tree) ∧
      { journal with fields }.allFields = .ok fields :=
  ⟨_, _, rfl, rfl, rfl, (carries_bookkeeping journal).2.1 _ rfl,
    (carries_bookkeeping journal).2.2 _ rfl⟩

end CollectionDefinition

end DocGate
