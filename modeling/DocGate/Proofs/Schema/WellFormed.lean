import Mathlib.Data.List.Forall2
import DocGate.Proofs.Schema.Fields

/-!
# Well-formed definitions

Which lists of fields have a schema, said on the definitions and not by the
compiler, and what the schema says of each of them.

There are three groups.

* The rule.  `FieldDefinition.Reaches` leads from a definition to the definitions in
  it, through the content of objects and the elements of arrays.
  `FieldDefinition.WellFormed` asks for fit names in a list of fields and that every
  definition that is reached from it is complete.
* Acceptance.  The compiler gives a schema exactly where the rule holds
  (`SchemaTree.exists_ofFields_iff`), and otherwise it reports one of the four faults
  that a list of fields can have (`SchemaTree.isOfFields_of_ofFields`).
* The schema.  `FieldDefinition.Mirrors` says which node belongs to a definition, with
  the nodes for its content and its elements.  Every compiled field has such a node
  (`FieldDefinition.mirrors_of_compile`).
-/

namespace DocGate

/-- The faults that a list of fields can have. -/
inductive DefinitionFault.IsOfFields : DefinitionFault → Prop
  | unnamedField (parent : String) : IsOfFields (.unnamedField parent)
  | repeatedField (name parent : String) : IsOfFields (.repeatedField name parent)
  | missingProperties (path : String) : IsOfFields (.missingProperties path)
  | missingItems (path : String) : IsOfFields (.missingItems path)

/-! ## The rule -/

namespace FieldDefinition

/-- The definitions that count in a definition: it counts itself, and what counts in
the fields of an object or in the elements of an array counts in the whole. -/
inductive Reaches : FieldDefinition → FieldDefinition → Prop
  | self (field : FieldDefinition) : Reaches field field
  | content {field inner reached : FieldDefinition} (hkind : field.kind = .rawObject)
      (hinner : inner ∈ field.content) (h : Reaches inner reached) : Reaches field reached
  | element {field item reached : FieldDefinition} (hkind : field.kind = .array)
      (hitem : field.items = some item) (h : Reaches item reached) : Reaches field reached

/-- Names that siblings may have: none is empty and none occurs twice. -/
structure NamesFit (fields : List FieldDefinition) : Prop where
  nonempty : ∀ field ∈ fields, field.name ≠ ""
  distinct : (fields.map FieldDefinition.name).Nodup

/-- A definition says what its kind asks for: the fields of an object, with fit names,
or the elements of an array.  Its own name does not matter. -/
structure IsComplete (field : FieldDefinition) : Prop where
  properties : field.kind = .rawObject → ∃ fields additional,
    field.schema = some ⟨some fields, additional⟩ ∧ NamesFit fields
  items : field.kind = .array → ∃ item, field.items = some item

/-- Everything that counts in a definition is complete. -/
def IsSound (field : FieldDefinition) : Prop :=
  ∀ reached, field.Reaches reached → reached.IsComplete

/-- A well-formed list of fields: the names are fit, and every definition that is
reached from one of the fields is complete. -/
structure WellFormed (fields : List FieldDefinition) : Prop where
  names : NamesFit fields
  complete : ∀ field ∈ fields, field.IsSound

variable {field : FieldDefinition} {fields : List FieldDefinition} {path parent : FieldPath}
  {seen : List String}

theorem namesFit_nil : NamesFit [] :=
  ⟨List.forall_mem_nil _, List.nodup_nil⟩

theorem namesFit_cons_iff : NamesFit (field :: fields) ↔
    field.name ≠ "" ∧ field.name ∉ fields.map FieldDefinition.name ∧ NamesFit fields := by
  constructor
  · intro ⟨hnonempty, hdistinct⟩
    have ⟨hname, hrest⟩ := List.forall_mem_cons.1 hnonempty
    have ⟨hfresh, hnodup⟩ := List.nodup_cons.1 hdistinct
    exact ⟨hname, hfresh, hrest, hnodup⟩
  · intro ⟨hname, hfresh, hrest, hnodup⟩
    exact ⟨List.forall_mem_cons.2 ⟨hname, hrest⟩, List.nodup_cons.2 ⟨hfresh, hnodup⟩⟩

/-- A definition of another kind has nothing in it. -/
theorem isSound_of_plain (hobject : field.kind ≠ .rawObject) (harray : field.kind ≠ .array) :
    field.IsSound := by
  intro reached h
  cases h with
  | self => exact ⟨fun hkind => absurd hkind hobject, fun hkind => absurd hkind harray⟩
  | content hkind => exact absurd hkind hobject
  | element hkind => exact absurd hkind harray

theorem content_eq_of_schema {additional : Bool}
    (h : field.schema = some ⟨some fields, additional⟩) : field.content = fields := by
  rw [content, h]

theorem isSound_rawObject_iff (hkind : field.kind = .rawObject) :
    field.IsSound ↔ ∃ fields additional, field.schema = some ⟨some fields, additional⟩ ∧
      WellFormed fields := by
  constructor
  · intro h
    obtain ⟨fields, additional, hschema, hnames⟩ := (h field (.self field)).properties hkind
    have hcontent := content_eq_of_schema hschema
    refine ⟨fields, additional, hschema, hnames, fun inner hinner reached hreached => ?_⟩
    exact h reached (.content hkind (hcontent ▸ hinner) hreached)
  · intro ⟨fields, additional, hschema, hnames, hcomplete⟩ reached h
    have hcontent := content_eq_of_schema hschema
    cases h with
    | self =>
      refine ⟨fun _ => ⟨fields, additional, hschema, hnames⟩, fun harray => ?_⟩
      cases hkind.symm.trans harray
    | content _ hinner hreached => exact hcomplete _ (hcontent ▸ hinner) reached hreached
    | element harray => cases hkind.symm.trans harray

theorem isSound_array_iff (hkind : field.kind = .array) :
    field.IsSound ↔ ∃ item, field.items = some item ∧ item.IsSound := by
  constructor
  · intro h
    obtain ⟨item, hitem⟩ := (h field (.self field)).items hkind
    exact ⟨item, hitem, fun reached hreached => h reached (.element hkind hitem hreached)⟩
  · intro ⟨item, hitem, hsound⟩ reached h
    cases h with
    | self =>
      refine ⟨fun hobject => ?_, fun _ => ⟨item, hitem⟩⟩
      cases hkind.symm.trans hobject
    | content hobject => cases hkind.symm.trans hobject
    | element _ hown hreached =>
      obtain rfl := Option.some.inj (hitem.symm.trans hown)
      exact hsound reached hreached

/-! ## Acceptance -/

theorem compile_rawObject (hkind : field.kind = .rawObject) :
    field.compile path = compileContent path field.notes field.schema := by
  cases field
  cases hkind
  rfl

theorem compile_array (hkind : field.kind = .array) :
    field.compile path = compileElements path field.notes field.items := by
  cases field
  cases hkind
  rfl

/-- A definition of another kind has a node, whatever else it says. -/
theorem exists_compile_of_plain (path : FieldPath) (hobject : field.kind ≠ .rawObject)
    (harray : field.kind ≠ .array) : ∃ result, field.compile path = .ok result := by
  obtain ⟨_, kind, _⟩ := field
  cases kind with
  | rawObject => exact absurd rfl hobject
  | array => exact absurd rfl harray
  | _ => exact ⟨_, rfl⟩

/-- The content of an object has a node if it lists fields that have nodes. -/
theorem exists_compileContent_iff {notes : NodeNotes}
    {schema : Option (NestedFields FieldDefinition)} :
    (∃ result, compileContent path notes schema = .ok result) ↔
      ∃ fields additional, schema = some ⟨some fields, additional⟩ ∧
        ∃ compiled, compileList path [] fields = .ok compiled := by
  constructor
  · intro ⟨result, h⟩
    match schema with
    | none => cases h
    | some ⟨none, _⟩ => cases h
    | some ⟨some fields, additional⟩ =>
      refine ⟨fields, additional, rfl, ?_⟩
      cases hlist : compileList path [] fields with
      | error fault => simp [compileContent, hlist] at h
      | ok compiled => exact ⟨compiled, rfl⟩
  · intro h
    obtain ⟨fields, additional, hschema, compiled, hlist⟩ := h
    simp [hschema, compileContent, hlist]

/-- An array has a node if it describes elements that have a node. -/
theorem exists_compileElements_iff {notes : NodeNotes} {items : Option FieldDefinition} :
    (∃ result, compileElements path notes items = .ok result) ↔
      ∃ item, items = some item ∧ ∃ result, item.compile (path ++ [.items]) = .ok result := by
  constructor
  · intro ⟨result, h⟩
    cases items with
    | none => cases h
    | some item =>
      refine ⟨item, rfl, ?_⟩
      cases hitem : item.compile (path ++ [.items]) with
      | error fault => simp [compileElements, hitem] at h
      | ok result => exact ⟨result, rfl⟩
  · intro h
    obtain ⟨item, hitems, result, hitem⟩ := h
    simp [hitems, compileElements, hitem]

/-- One step of the compilation of a list. -/
theorem exists_compileList_cons_iff :
    (∃ compiled, compileList parent seen (field :: fields) = .ok compiled) ↔
      field.name ≠ "" ∧ field.name ∉ seen ∧
      (∃ result, field.compile (parent ++ [.field field.name]) = .ok result) ∧
      ∃ compiled, compileList parent (field.name :: seen) fields = .ok compiled := by
  rw [compileList]
  split
  · rename_i hempty
    exact iff_of_false (by simp) fun h => h.1 (String.isEmpty_iff.1 hempty)
  rename_i hempty
  have hname : field.name ≠ "" := fun e => hempty (String.isEmpty_iff.2 e)
  split
  · rename_i hseen
    exact iff_of_false (by simp) fun h => h.2.1 (List.contains_iff_mem.1 hseen)
  rename_i hseen
  have hnew : field.name ∉ seen := fun hmem => hseen (List.contains_iff_mem.2 hmem)
  cases field.compile (parent ++ [.field field.name]) with
  | error fault => simp
  | ok result => cases compileList parent (field.name :: seen) fields <;> simp [hname, hnew]

/-- A list of fields is compiled if its names are fit and new and every field in it has
a node. -/
theorem exists_compileList_iff :
    (∃ compiled, compileList parent seen fields = .ok compiled) ↔
      NamesFit fields ∧ (∀ field ∈ fields, field.name ∉ seen) ∧
      ∀ field ∈ fields, ∃ result, field.compile (parent ++ [.field field.name]) = .ok result := by
  induction fields generalizing seen with
  | nil => exact iff_of_true ⟨{}, rfl⟩ ⟨namesFit_nil, List.forall_mem_nil _, List.forall_mem_nil _⟩
  | cons field rest ih =>
    rw [exists_compileList_cons_iff, namesFit_cons_iff, List.forall_mem_cons, List.forall_mem_cons,
      ih]
    constructor
    · intro ⟨hname, hnew, hfield, hfit, hothers, hrest⟩
      have hfresh : field.name ∉ rest.map FieldDefinition.name := by
        intro hmem
        obtain ⟨other, hother, heq⟩ := List.mem_map.1 hmem
        exact hothers other hother (heq ▸ List.mem_cons_self)
      exact ⟨⟨hname, hfresh, hfit⟩,
        ⟨hnew, fun other hother hold => hothers other hother (List.mem_cons_of_mem _ hold)⟩,
        hfield, hrest⟩
    · intro ⟨⟨hname, hfresh, hfit⟩, ⟨hnew, hothers⟩, hfield, hrest⟩
      refine ⟨hname, hnew, hfield, hfit, fun other hother hmem => ?_, hrest⟩
      rcases List.mem_cons.1 hmem with heq | hold
      · exact hfresh (heq ▸ List.mem_map_of_mem hother)
      · exact hothers other hother hold

/-- A definition has a node, wherever it stands, if everything that counts in it is
complete. -/
theorem exists_compile_iff (field : FieldDefinition) :
    ∀ path, (∃ result, field.compile path = .ok result) ↔ field.IsSound := by
  induction field using induction with
  | step field ihcontent ihitems =>
    intro path
    by_cases hobject : field.kind = .rawObject
    · rw [compile_rawObject hobject, exists_compileContent_iff, isSound_rawObject_iff hobject]
      refine exists_congr fun fields => exists_congr fun additional =>
        and_congr_right fun hschema => ?_
      have hcontent := content_eq_of_schema hschema
      have hfields : (∀ inner ∈ fields,
            ∃ result, inner.compile (path ++ [.field inner.name]) = .ok result) ↔
          ∀ inner ∈ fields, inner.IsSound :=
        forall₂_congr fun inner hinner => ihcontent inner (hcontent ▸ hinner) _
      rw [exists_compileList_iff, hfields]
      exact ⟨fun ⟨hnames, _, hsound⟩ => ⟨hnames, hsound⟩,
        fun ⟨hnames, hsound⟩ => ⟨hnames, fun _ _ => List.not_mem_nil, hsound⟩⟩
    by_cases harray : field.kind = .array
    · rw [compile_array harray, exists_compileElements_iff, isSound_array_iff harray]
      exact exists_congr fun item => and_congr_right fun hitem => ihitems item hitem _
    · exact iff_of_true (exists_compile_of_plain path hobject harray)
        (isSound_of_plain hobject harray)

/-! ## Refusals -/

/-- The fault of a list that is not compiled is one of its fields' names, of a field in
it or of the others. -/
theorem isOfFields_of_compileList {fault : DefinitionFault}
    (hfields : ∀ field ∈ fields, ∀ {path : FieldPath} {fault : DefinitionFault},
      field.compile path = .error fault → fault.IsOfFields)
    (h : compileList parent seen fields = .error fault) : fault.IsOfFields := by
  induction fields generalizing seen with
  | nil => cases h
  | cons field rest ih =>
    obtain ⟨hfirst, hrest⟩ := List.forall_mem_cons.1 hfields
    rw [compileList] at h
    split at h
    · obtain rfl := Except.error.inj h
      exact .unnamedField _
    split at h
    · obtain rfl := Except.error.inj h
      exact .repeatedField _ _
    cases hfield : field.compile (parent ++ [.field field.name]) with
    | error own =>
      obtain rfl : own = fault := by simpa [hfield] using h
      exact hfirst hfield
    | ok result =>
      cases hothers : compileList parent (field.name :: seen) rest with
      | error own =>
        obtain rfl : own = fault := by simpa [hfield, hothers] using h
        exact ih hrest hothers
      | ok compiled => simp [hfield, hothers] at h

/-- The fault of a definition that has no node is one that a list of fields can have. -/
theorem isOfFields_of_compile (field : FieldDefinition) :
    ∀ {path : FieldPath} {fault : DefinitionFault},
      field.compile path = .error fault → fault.IsOfFields := by
  induction field using induction with
  | step field ihcontent ihitems =>
    intro path fault h
    by_cases hobject : field.kind = .rawObject
    · rw [compile_rawObject hobject] at h
      rw [content] at ihcontent
      match hschema : field.schema with
      | none =>
        rw [hschema] at h
        obtain rfl := Except.error.inj h
        exact .missingProperties _
      | some ⟨none, _⟩ =>
        rw [hschema] at h
        obtain rfl := Except.error.inj h
        exact .missingProperties _
      | some ⟨some fields, additional⟩ =>
        rw [hschema, compileContent] at h
        rw [hschema] at ihcontent
        cases hlist : compileList path [] fields with
        | error own =>
          obtain rfl : own = fault := by simpa [hlist] using h
          exact isOfFields_of_compileList ihcontent hlist
        | ok compiled => simp [hlist] at h
    by_cases harray : field.kind = .array
    · rw [compile_array harray] at h
      cases hitems : field.items with
      | none =>
        rw [hitems] at h
        obtain rfl := Except.error.inj h
        exact .missingItems _
      | some item =>
        rw [hitems, compileElements] at h
        cases hitem : item.compile (path ++ [.items]) with
        | error own =>
          obtain rfl : own = fault := by simpa [hitem] using h
          exact ihitems item hitems hitem
        | ok result => simp [hitem] at h
    · obtain ⟨result, hresult⟩ := exists_compile_of_plain path hobject harray
      cases hresult.symm.trans h

end FieldDefinition

/-! ## The schema -/

/-- The cast that the values of a kind need. -/
def FieldKind.castKind? : FieldKind → Option CastKind
  | .objectId => some .objectId
  | .geoPoint => some .geoPoint
  | _ => none

namespace FieldDefinition

/-- The names of the required fields, in order. -/
def requiredNames (fields : List FieldDefinition) : List String :=
  (fields.filter fun field => field.required).map FieldDefinition.name

/-- Notes that say what a definition says. -/
structure NotedBy (field : FieldDefinition) (notes : NodeNotes) : Prop where
  nullable : notes.nullable = field.nullable
  description : notes.description = field.description
  cast : notes.cast.map CastTarget.kind = field.kind.castKind?

/-- The node for a definition, by its kind.  An object has the properties of its
content in order, and an array the node for its elements. -/
inductive Mirrors : FieldDefinition → SchemaNode → Prop
  | string {field : FieldDefinition} {notes : NodeNotes} (hkind : field.kind = .string)
      (hnotes : field.NotedBy notes) : Mirrors field (.text none none notes)
  | number {field : FieldDefinition} {notes : NodeNotes} (hkind : field.kind = .number)
      (hnotes : field.NotedBy notes) : Mirrors field (.number notes)
  | boolean {field : FieldDefinition} {notes : NodeNotes} (hkind : field.kind = .boolean)
      (hnotes : field.NotedBy notes) : Mirrors field (.boolean notes)
  | date {field : FieldDefinition} {notes : NodeNotes} (hkind : field.kind = .date)
      (hnotes : field.NotedBy notes) : Mirrors field (.text (some .dateTime) none notes)
  | objectId {field : FieldDefinition} {notes : NodeNotes} (hkind : field.kind = .objectId)
      (hnotes : field.NotedBy notes) :
      Mirrors field (.text none (some SchemaNode.objectIdPattern) notes)
  | geoPoint {field : FieldDefinition} {notes : NodeNotes} (hkind : field.kind = .geoPoint)
      (hnotes : field.NotedBy notes) :
      Mirrors field (.array (.number {}) (some 2) (some 3) notes)
  | rawObject {field : FieldDefinition} {notes : NodeNotes} (hkind : field.kind = .rawObject)
      (hnotes : field.NotedBy notes) {properties : Assoc SchemaNode}
      (hnames : properties.keys = field.content.map FieldDefinition.name)
      (hnodes : List.Forall₂ (fun inner property => Mirrors inner property.2)
        field.content properties) :
      Mirrors field
        (.object properties (requiredNames field.content) field.toleratesOthers notes)
  | array {field item : FieldDefinition} {notes : NodeNotes} {node : SchemaNode}
      (hkind : field.kind = .array) (hnotes : field.NotedBy notes)
      (hitem : field.items = some item) (hnode : Mirrors item node) :
      Mirrors field (.array node none none notes)

end FieldDefinition

/-- The schema for a list of fields: a property for each of them, in order, and other
fields are tolerated. -/
structure SchemaTree.Mirrors (tree : SchemaTree) (fields : List FieldDefinition) : Prop where
  names : tree.fieldNames = fields.map FieldDefinition.name
  nodes : List.Forall₂ (fun field property => field.Mirrors property.2) fields
    tree.root.properties
  required : tree.root.required = FieldDefinition.requiredNames fields
  tolerant : tree.root.additionalProperties = true

namespace CompiledField

variable {parent : FieldPath} (parts : List (CompiledField parent))

theorem keys_collect : (collect parts).properties.keys =
    (parts.map CompiledField.field).map FieldDefinition.name := by
  rw [Assoc.keys, collect, List.map_map, List.map_map]
  rfl

theorem required_collect : (collect parts).required =
    FieldDefinition.requiredNames (parts.map CompiledField.field) := by
  rw [FieldDefinition.requiredNames, List.filter_map, List.map_map]
  rfl

variable {parts}

theorem forall₂_collect (h : ∀ part ∈ parts, part.field.Mirrors part.node) :
    List.Forall₂ (fun field (property : String × SchemaNode) => field.Mirrors property.2)
      (parts.map CompiledField.field) (collect parts).properties := by
  rw [collect, List.forall₂_map_left_iff, List.forall₂_map_right_iff]
  exact List.forall₂_same.2 h

end CompiledField

namespace FieldDefinition

/-- Notes without a cast say what a definition of another kind says. -/
theorem notedBy_notes {field : FieldDefinition} (h : field.kind.castKind? = none) :
    field.NotedBy field.notes :=
  ⟨rfl, rfl, h.symm⟩

/-- Notes with a cast say what a definition of its kind says. -/
theorem notedBy_cast {field : FieldDefinition} {target : CastTarget}
    (h : field.kind.castKind? = some target.kind) :
    field.NotedBy { field.notes with cast := some target } :=
  ⟨rfl, rfl, h.symm⟩

/-- A definition is compiled to a node that mirrors it, with the nodes in it. -/
theorem mirrors_of_compile (field : FieldDefinition) :
    ∀ {path : FieldPath} {node : SchemaNode} {targets : List CastTarget},
      field.compile path = .ok (node, targets) → field.Mirrors node := by
  induction field using induction with
  | step field ihcontent ihitems =>
    intro path node targets h
    cases compiled_of_compile h with
    | string hkind => exact .string hkind (notedBy_notes (by rw [hkind]; rfl))
    | number hkind => exact .number hkind (notedBy_notes (by rw [hkind]; rfl))
    | boolean hkind => exact .boolean hkind (notedBy_notes (by rw [hkind]; rfl))
    | date hkind => exact .date hkind (notedBy_notes (by rw [hkind]; rfl))
    | objectId hkind => exact .objectId hkind (notedBy_cast (by rw [hkind]; rfl))
    | geoPoint hkind => exact .geoPoint hkind (notedBy_cast (by rw [hkind]; rfl))
    | @rawObject hkind parts hcontent hnodup =>
      rw [CompiledField.required_collect, hcontent]
      refine .rawObject hkind (notedBy_notes (by rw [hkind]; rfl)) ?_ ?_
      · rw [CompiledField.keys_collect, hcontent]
      · rw [← hcontent]
        refine CompiledField.forall₂_collect fun part hpart => ?_
        exact ihcontent part.field (hcontent ▸ List.mem_map_of_mem hpart) part.compile_eq
    | array hkind hitem hinner =>
      exact .array hkind (notedBy_notes (by rw [hkind]; rfl)) hitem (ihitems _ hitem hinner)

end FieldDefinition

namespace SchemaTree

variable {fields : List FieldDefinition}

theorem exists_ofFields_iff_compileList : (∃ tree, ofFields fields = .ok tree) ↔
    ∃ compiled, FieldDefinition.compileList [] [] fields = .ok compiled := by
  rw [ofFields]
  cases FieldDefinition.compileList [] [] fields <;> simp

/-- A list of fields has a schema if it is well formed. -/
theorem exists_ofFields_iff :
    (∃ tree, ofFields fields = .ok tree) ↔ FieldDefinition.WellFormed fields := by
  rw [exists_ofFields_iff_compileList, FieldDefinition.exists_compileList_iff]
  constructor
  · intro ⟨hnames, _, hfields⟩
    exact ⟨hnames, fun field hfield => (field.exists_compile_iff _).1 (hfields field hfield)⟩
  · intro ⟨hnames, hsound⟩
    exact ⟨hnames, fun _ _ => List.not_mem_nil,
      fun field hfield => (field.exists_compile_iff _).2 (hsound field hfield)⟩

/-- The fault of a list of fields without a schema. -/
theorem isOfFields_of_ofFields {fault : DefinitionFault} (h : ofFields fields = .error fault) :
    fault.IsOfFields := by
  rw [ofFields] at h
  cases hlist : FieldDefinition.compileList [] [] fields with
  | error own =>
    obtain rfl : own = fault := by simpa [hlist] using h
    exact FieldDefinition.isOfFields_of_compileList
      (fun field _ _ _ hfield => field.isOfFields_of_compile hfield) hlist
  | ok compiled => simp [hlist] at h

/-- A schema mirrors the fields that it is made from. -/
theorem mirrors_of_ofFields {tree : SchemaTree} (h : ofFields fields = .ok tree) :
    tree.Mirrors fields := by
  obtain ⟨parts, rfl, _, rfl⟩ := ofFields_eq_ok h
  exact ⟨CompiledField.keys_collect parts,
    CompiledField.forall₂_collect fun part _ => part.field.mirrors_of_compile part.compile_eq,
    CompiledField.required_collect parts, rfl⟩

/-- Every field has a node of its own, which is found under its name. -/
theorem exists_property? {tree : SchemaTree} (h : ofFields fields = .ok tree)
    {field : FieldDefinition} (hfield : field ∈ fields) :
    ∃ node, tree.property? field.name = some node ∧ field.Mirrors node := by
  obtain ⟨parts, rfl, hnodup, rfl⟩ := ofFields_eq_ok h
  obtain ⟨part, hpart, rfl⟩ := List.mem_map.1 hfield
  have hdistinct : Assoc.Distinct (CompiledField.collect parts).properties := by
    rw [Assoc.Distinct, CompiledField.keys_collect, ← CompiledField.names_eq_map_field]
    exact hnodup
  exact ⟨part.node, Assoc.get?_eq_some_of_mem hdistinct (List.mem_map_of_mem hpart),
    part.field.mirrors_of_compile part.compile_eq⟩

/-- The lists of fields that have a schema are the well-formed ones, what is reported
of the others is a fault in their fields, and the schema mirrors the fields node by
node. -/
theorem ofFields_accepts (fields : List FieldDefinition) :
    ((∃ tree, ofFields fields = .ok tree) ↔ FieldDefinition.WellFormed fields) ∧
      (∀ fault, ofFields fields = .error fault → fault.IsOfFields) ∧
      ∀ tree, ofFields fields = .ok tree → tree.Mirrors fields :=
  ⟨exists_ofFields_iff, fun _ => isOfFields_of_ofFields, fun _ => mirrors_of_ofFields⟩

/-- Shops with an address and shelves. -/
def shops : List FieldDefinition := [
  { name := "address", kind := .rawObject, required := true
    schema := some ⟨some [{ name := "street", kind := .string, required := true },
      { name := "place", kind := .geoPoint, nullable := true }], false⟩ },
  .array "shelves" (.rawObject "" [{ name := "owner", kind := .objectId },
    .array "tags" (.item .objectId)])]

/-- The same name twice in the content of the shelves. -/
def shopsWithTwins : List FieldDefinition :=
  [.array "shelves" (.rawObject "" [{ name := "owner", kind := .objectId },
    .array "owner" (.item .string)])]

/-- Elements need no name, and a name may occur in several lists of siblings. -/
theorem ofFields_accepts_shops :
    FieldDefinition.WellFormed shops ∧
      (∃ tree, ofFields shops = .ok tree ∧ tree.Mirrors shops) ∧
      ∃ fault, ofFields shopsWithTwins = .error fault ∧ fault.IsOfFields :=
  ⟨(ofFields_accepts shops).1.1 ⟨_, rfl⟩,
    ⟨_, rfl, (ofFields_accepts shops).2.2 _ rfl⟩,
    ⟨_, rfl, (ofFields_accepts shopsWithTwins).2.1 _ rfl⟩⟩

end SchemaTree

end DocGate
