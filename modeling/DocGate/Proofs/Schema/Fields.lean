import DocGate.Schema.Compile

/-!
# Compiled field lists

What the compilation of a list of fields says, with the recursion on the list
taken out.

* `FieldDefinition.induction` is the induction on a definition: on the fields of
  its content and on the definition of its elements.
* `CompiledField` is a field with the node and the cast targets that it compiles
  to, below the path of its object.
* `compileList_eq_ok` reads a compiled list as compiled fields, one for each
  declared field, in order and with distinct names.
* `Compiled` has a case for each kind of field with the node that the field
  compiles to, and `compiled_of_compile` is the inversion of the compiler.
-/

namespace DocGate

namespace FieldDefinition

/-! ## Definitions by their parts -/

mutual

/-- Induction on the definitions in a definition. -/
@[elab_as_elim]
theorem induction {motive : FieldDefinition → Prop}
    (step : ∀ field, (∀ inner ∈ field.content, motive inner) →
      (∀ item, field.items = some item → motive item) → motive field) : ∀ field, motive field
  | ⟨_, _, _, _, _, schema, items⟩ =>
    step _ (inductionContent step schema) (inductionItem step items)
termination_by structural field => field

theorem inductionContent {motive : FieldDefinition → Prop}
    (step : ∀ field, (∀ inner ∈ field.content, motive inner) →
      (∀ item, field.items = some item → motive item) → motive field) :
    ∀ schema : Option (NestedFields FieldDefinition),
      ∀ inner ∈ (match schema with
        | some ⟨some fields, _⟩ => fields
        | _ => []), motive inner
  | some ⟨some fields, _⟩ => inductionList step fields
  | some ⟨none, _⟩ => List.forall_mem_nil _
  | none => List.forall_mem_nil _
termination_by structural schema => schema

theorem inductionItem {motive : FieldDefinition → Prop}
    (step : ∀ field, (∀ inner ∈ field.content, motive inner) →
      (∀ item, field.items = some item → motive item) → motive field) :
    ∀ (items : Option FieldDefinition) (item : FieldDefinition), items = some item → motive item
  | some item, _, h => Option.some.inj h ▸ induction step item
  | none, _, h => nomatch h
termination_by structural items => items

theorem inductionList {motive : FieldDefinition → Prop}
    (step : ∀ field, (∀ inner ∈ field.content, motive inner) →
      (∀ item, field.items = some item → motive item) → motive field) :
    ∀ fields : List FieldDefinition, ∀ field ∈ fields, motive field
  | [] => List.forall_mem_nil _
  | field :: rest => List.forall_mem_cons.2 ⟨induction step field, inductionList step rest⟩
termination_by structural fields => fields

end

/-! ## What compiles to what -/

/-- What the node of a field says beside its type, without a cast. -/
def notes (field : FieldDefinition) : NodeNotes :=
  { nullable := field.nullable, description := field.description }

end FieldDefinition

/-- A field of the object at `parent` with what it compiles to. -/
structure CompiledField (parent : FieldPath) where
  field : FieldDefinition
  node : SchemaNode
  targets : List CastTarget
  compile_eq : field.compile (parent ++ [.field field.name]) = .ok (node, targets)

namespace CompiledField

variable {parent : FieldPath}

/-- The names of some fields. -/
def names (parts : List (CompiledField parent)) : List String :=
  parts.map fun part => part.field.name

theorem names_eq_map_field (parts : List (CompiledField parent)) :
    names parts = (parts.map CompiledField.field).map FieldDefinition.name := by
  rw [names, List.map_map]
  rfl

/-- The fields of an object, compiled one by one. -/
def collect (parts : List (CompiledField parent)) : CompiledFields where
  properties := parts.map fun part => (part.field.name, part.node)
  required := (parts.filter fun part => part.field.required).map fun part => part.field.name
  castTargets := parts.flatMap fun part => part.targets

end CompiledField

namespace FieldDefinition

variable {path parent : FieldPath} {seen : List String} {field : FieldDefinition}
  {fields : List FieldDefinition} {node : SchemaNode} {targets : List CastTarget}

/-- A compiled list has a compiled field for each declared one, and no name
occurs twice or has been seen before. -/
theorem compileList_eq_ok {compiled : CompiledFields}
    (h : compileList parent seen fields = .ok compiled) :
    ∃ parts : List (CompiledField parent), parts.map CompiledField.field = fields ∧
      compiled = CompiledField.collect parts ∧ (CompiledField.names parts).Nodup ∧
      ∀ name ∈ CompiledField.names parts, name ∉ seen := by
  induction fields generalizing seen compiled with
  | nil =>
    obtain rfl := Except.ok.inj h
    exact ⟨[], rfl, rfl, List.nodup_nil, List.forall_mem_nil _⟩
  | cons field rest ih =>
    rw [compileList] at h
    split at h
    · cases h
    split at h
    · cases h
    rename_i hseen
    cases hfield : field.compile (parent ++ [.field field.name]) with
    | error fault => simp [hfield] at h
    | ok result =>
      obtain ⟨node, targets⟩ := result
      cases hrest : compileList parent (field.name :: seen) rest with
      | error fault => simp [hfield, hrest] at h
      | ok others =>
        obtain ⟨parts, hparts, rfl, hnodup, hnew⟩ := ih hrest
        simp only [hfield, hrest, Except.ok.injEq] at h
        obtain rfl := h
        have hseen : field.name ∉ seen := by simpa using hseen
        have hfresh : field.name ∉ CompiledField.names parts :=
          fun hmem => hnew _ hmem List.mem_cons_self
        refine ⟨⟨field, node, targets, hfield⟩ :: parts, by rw [List.map_cons, hparts], ?_,
          List.nodup_cons.2 ⟨hfresh, hnodup⟩, List.forall_mem_cons.2 ⟨hseen, ?_⟩⟩
        · rw [CompiledField.collect, CompiledField.collect, List.filter_cons]
          split <;> rfl
        · exact fun name hname hold => hnew name hname (List.mem_cons_of_mem _ hold)

/-- The node and the cast targets of a field at `path`, by its kind. -/
inductive Compiled (path : FieldPath) (field : FieldDefinition) :
    SchemaNode → List CastTarget → Prop
  | string (hkind : field.kind = .string) : Compiled path field (.text none none field.notes) []
  | number (hkind : field.kind = .number) : Compiled path field (.number field.notes) []
  | boolean (hkind : field.kind = .boolean) : Compiled path field (.boolean field.notes) []
  | date (hkind : field.kind = .date) :
      Compiled path field (.text (some .dateTime) none field.notes) []
  | objectId (hkind : field.kind = .objectId) :
      Compiled path field (.text none (some SchemaNode.objectIdPattern)
        { field.notes with cast := some ⟨.objectId, path⟩ }) [⟨.objectId, path⟩]
  | geoPoint (hkind : field.kind = .geoPoint) :
      Compiled path field (.array (.number {}) (some 2) (some 3)
        { field.notes with cast := some ⟨.geoPoint, path⟩ }) [⟨.geoPoint, path⟩]
  | rawObject (hkind : field.kind = .rawObject) {parts : List (CompiledField path)}
      (hcontent : parts.map CompiledField.field = field.content)
      (hnodup : (CompiledField.names parts).Nodup) :
      Compiled path field (.object (CompiledField.collect parts).properties
        (CompiledField.collect parts).required field.toleratesOthers field.notes)
        (CompiledField.collect parts).castTargets
  | array (hkind : field.kind = .array) {item : FieldDefinition} {inner : SchemaNode}
      {targets : List CastTarget} (hitem : field.items = some item)
      (hinner : item.compile (path ++ [.items]) = .ok (inner, targets)) :
      Compiled path field (.array inner none none field.notes) targets

/-- What a field compiles to. -/
theorem compiled_of_compile (h : field.compile path = .ok (node, targets)) :
    Compiled path field node targets := by
  obtain ⟨name, kind, required, nullable, description, schema, items⟩ := field
  cases kind with
  | string => cases h; exact .string rfl
  | number => cases h; exact .number rfl
  | boolean => cases h; exact .boolean rfl
  | date => cases h; exact .date rfl
  | objectId => cases h; exact .objectId rfl
  | geoPoint => cases h; exact .geoPoint rfl
  | rawObject =>
    match schema with
    | none => cases h
    | some ⟨none, _⟩ => cases h
    | some ⟨some fields, additional⟩ =>
      cases hlist : compileList path [] fields with
      | error fault => simp [compile, compileContent, hlist] at h
      | ok compiled =>
        simp only [compile, compileContent, hlist] at h
        obtain ⟨parts, hparts, rfl, hnodup, -⟩ := compileList_eq_ok hlist
        cases h
        exact .rawObject rfl hparts hnodup
  | array =>
    cases items with
    | none => cases h
    | some item =>
      cases hitem : item.compile (path ++ [.items]) with
      | error fault => simp [compile, compileElements, hitem] at h
      | ok result =>
        obtain ⟨inner, targets⟩ := result
        simp only [compile, compileElements, hitem] at h
        cases h
        exact .array rfl rfl hitem

/-- The node of a field is nullable if the field is. -/
theorem Compiled.nullable_eq (h : Compiled path field node targets) :
    node.notes.nullable = field.nullable := by
  cases h <;> rfl

/-- What a `RawObject` field compiles to. -/
theorem Compiled.of_rawObject (h : Compiled path field node targets)
    (hkind : field.kind = .rawObject) :
    ∃ parts : List (CompiledField path), parts.map CompiledField.field = field.content ∧
      (CompiledField.names parts).Nodup ∧
      node = .object (CompiledField.collect parts).properties (CompiledField.collect parts).required
        field.toleratesOthers field.notes := by
  cases h with
  | rawObject _ hcontent hnodup => exact ⟨_, hcontent, hnodup, rfl⟩
  | string hother | number hother | boolean hother | date hother | objectId hother
  | geoPoint hother | array hother => cases hkind.symm.trans hother

/-- What an `Array` field compiles to. -/
theorem Compiled.of_array (h : Compiled path field node targets) (hkind : field.kind = .array)
    {item : FieldDefinition} (hitem : field.items = some item) :
    ∃ inner, item.compile (path ++ [.items]) = .ok (inner, targets) ∧
      node = .array inner none none field.notes := by
  cases h with
  | array _ hown hinner =>
    obtain rfl := Option.some.inj (hitem.symm.trans hown)
    exact ⟨_, hinner, rfl⟩
  | string hother | number hother | boolean hother | date hother | objectId hother
  | geoPoint hother | rawObject hother => cases hkind.symm.trans hother

end FieldDefinition

namespace SchemaTree

/-- A compiled schema has a compiled field for each declared one. -/
theorem ofFields_eq_ok {fields : List FieldDefinition} {tree : SchemaTree}
    (h : ofFields fields = .ok tree) :
    ∃ parts : List (CompiledField []), parts.map CompiledField.field = fields ∧
      (CompiledField.names parts).Nodup ∧
      tree = ⟨⟨(CompiledField.collect parts).properties, (CompiledField.collect parts).required, true⟩,
        (CompiledField.collect parts).castTargets⟩ := by
  rw [ofFields] at h
  cases hlist : FieldDefinition.compileList [] [] fields with
  | error fault => simp [hlist] at h
  | ok compiled =>
    obtain ⟨parts, hparts, rfl, hnodup, -⟩ := FieldDefinition.compileList_eq_ok hlist
    simp only [hlist, Except.ok.injEq] at h
    exact ⟨parts, hparts, hnodup, h.symm⟩

end SchemaTree

end DocGate
