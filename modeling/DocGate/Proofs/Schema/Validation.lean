import DocGate.Schema.Render
import DocGate.Schema.Validate

/-!
# What a rendered schema admits

`SchemaNode.Admits` says which values a node is about, on the node itself.  A
value that a node admits satisfies the JSON Schema that the node is rendered to
(`SchemaNode.validates_toRaw`), and the same holds of whole schemas
(`SchemaTree.validates_toRaw`).

The proofs go member by member.  Each of the lists that a rendered node is put
together from has a lemma that says when its members hold of a value.
-/

namespace DocGate

namespace JsonSchema

variable {declared : List String} {value : Bson}

/-! ## Reading back what is rendered -/

theorem textOf?_ofText (text : String) : textOf? (RawJson.ofText text) = some text :=
  StringPiece.text?_ofText text

theorem textsOf?_ofTexts (texts : List String) : textsOf? (RawJson.ofTexts texts) = some texts := by
  rw [RawJson.ofTexts, textsOf?]
  induction texts with
  | nil => rfl
  | cons text rest ih => simp [textOf?_ofText, ih]

theorem countOf?_ofInt (count : Nat) : countOf? (RawJson.ofInt count) = some count := by
  have hsign : decide ((count : Int) < 0) = false := decide_eq_false (by omega)
  rw [RawJson.ofInt, hsign, Int.natAbs_natCast]
  rfl

/-- Members with their names as string literals. -/
def named (members : List (String × RawJson)) : List (List StringPiece × RawJson) :=
  members.map fun member => (StringPiece.ofText member.1, member.2)

theorem validates_ofMembers (members : List (String × RawJson)) (value : Bson) :
    validates (RawJson.ofMembers members) value =
      membersHold (declaredNames (named members)) (named members) value := rfl

/-! ## Members -/

theorem membersHold_nil : membersHold declared (named []) value = true := rfl

theorem membersHold_append (first second : List (String × RawJson)) :
    membersHold declared (named (first ++ second)) value =
      (membersHold declared (named first) value && membersHold declared (named second) value) := by
  induction first with
  | nil => rfl
  | cons member rest ih =>
    rw [named] at ih ⊢
    rw [named, List.cons_append, List.map_cons, List.map_cons, membersHold, membersHold, ih, named,
      Bool.and_assoc]

/-- A member with a keyword that is checked. -/
theorem membersHold_cons {name : String} {keyword : Keyword}
    (h : Keyword.ofText? name = some keyword) (body : RawJson) (rest : List (String × RawJson)) :
    membersHold declared (named ((name, body) :: rest)) value =
      (memberHolds declared (validates body) (propertiesHold body) body keyword value &&
        membersHold declared (named rest) value) := by
  rw [named, List.map_cons, membersHold, StringPiece.text?_ofText, Option.bind_some, h]
  rfl

theorem membersHold_singleton {name : String} {keyword : Keyword}
    (h : Keyword.ofText? name = some keyword) (body : RawJson) :
    membersHold declared (named [(name, body)]) value =
      memberHolds declared (validates body) (propertiesHold body) body keyword value := by
  rw [membersHold_cons h, membersHold_nil, Bool.and_true]

/-- A member with another keyword. -/
theorem membersHold_skip {name : String} (h : Keyword.ofText? name = none) (body : RawJson)
    (rest : List (String × RawJson)) :
    membersHold declared (named ((name, body) :: rest)) value =
      membersHold declared (named rest) value := by
  rw [named, List.map_cons, membersHold, StringPiece.text?_ofText, Option.bind_some, h]
  rfl

/-- The members that every node has ask for its type, or for `null` where the
node is nullable. -/
theorem membersHold_notes {typeName : String} {notes : NodeNotes}
    (h : hasTypeName value typeName = true ∨ notes.nullable = true ∧ value = .null) :
    membersHold declared (named (notes.members typeName)) value = true := by
  have htype : hasType (if notes.nullable then RawJson.ofTexts [typeName, "null"]
      else RawJson.ofText typeName) value = true := by
    cases hnullable : notes.nullable with
    | false =>
      obtain htype | ⟨hnull, -⟩ := h
      · rw [if_neg Bool.false_ne_true, hasType, textOf?_ofText]
        exact htype
      · rw [hnullable] at hnull
        cases hnull
    | true =>
      have hlist : textOf? (RawJson.ofTexts [typeName, "null"]) = none := rfl
      rw [if_pos rfl, hasType, hlist, textsOf?_ofTexts, Option.any_some, List.any_cons,
        List.any_cons, Bool.or_eq_true, Bool.or_eq_true]
      obtain htype | ⟨-, rfl⟩ := h
      · exact .inl htype
      · exact .inr (.inl rfl)
  have hdescription : ∀ description : String,
      membersHold declared (named [("description", RawJson.ofText description)]) value = true :=
    fun _ => membersHold_skip (by rfl) _ []
  have hcast : ∀ body : RawJson,
      membersHold declared (named [(NodeNotes.castKeyword, body)]) value = true :=
    fun body => membersHold_skip (by rfl) body []
  rw [NodeNotes.members, membersHold_append, membersHold_append, membersHold_cons (by rfl),
    memberHolds, htype]
  cases notes.description <;> cases notes.cast <;>
    simp only [hdescription, hcast, membersHold_nil, Bool.and_self]

/-- The member for the least length of an array. -/
theorem membersHold_minItems {bound : Option Nat}
    (h : ∀ items count, value = .array items → bound = some count → count ≤ items.length) :
    membersHold declared (named (SchemaNode.boundMember "minItems" bound)) value = true := by
  cases bound with
  | none => rfl
  | some count =>
    rw [SchemaNode.boundMember, membersHold_singleton (by rfl)]
    cases value with
    | array items => simp [memberHolds, countOf?_ofInt, h items count rfl rfl]
    | _ => rfl

/-- The member for the greatest length of an array. -/
theorem membersHold_maxItems {bound : Option Nat}
    (h : ∀ items count, value = .array items → bound = some count → items.length ≤ count) :
    membersHold declared (named (SchemaNode.boundMember "maxItems" bound)) value = true := by
  cases bound with
  | none => rfl
  | some count =>
    rw [SchemaNode.boundMember, membersHold_singleton (by rfl)]
    cases value with
    | array items => simp [memberHolds, countOf?_ofInt, h items count rfl rfl]
    | _ => rfl

/-- The member for the form of a text. -/
theorem membersHold_format {format : Option TextFormat}
    (h : ∀ text, value = .string text → format = some .dateTime →
      Text.isTimestamp text.toList = true) :
    membersHold declared (named (SchemaNode.formatMember format)) value = true := by
  cases format with
  | none => rfl
  | some format =>
    cases format
    rw [SchemaNode.formatMember, membersHold_singleton (by rfl)]
    cases value with
    | string text => rw [memberHolds, textOf?_ofText, if_pos rfl, h text rfl rfl]
    | _ => rfl

/-- The member for the pattern of a text. -/
theorem membersHold_pattern {pattern : Option String}
    (h : ∀ text regex, value = .string text → pattern = some regex →
      ∃ form, Pattern.read? regex = some form ∧ form.accepts text = true) :
    membersHold declared (named (SchemaNode.patternMember pattern)) value = true := by
  cases pattern with
  | none => rfl
  | some regex =>
    rw [SchemaNode.patternMember, membersHold_singleton (by rfl)]
    cases value with
    | string text =>
      obtain ⟨form, hform, haccepts⟩ := h text regex rfl rfl
      rw [memberHolds, textOf?_ofText, Option.bind_some, hform]
      exact haccepts
    | _ => rfl

/-- The member for the elements of an array. -/
theorem membersHold_items {items : RawJson}
    (h : ∀ values, value = .array values → ∀ element ∈ values, validates items element = true) :
    membersHold declared (named [("items", items)]) value = true := by
  rw [membersHold_singleton (by rfl)]
  cases value with
  | array values => exact List.all_eq_true.2 (h values rfl)
  | _ => rfl

/-- Entries satisfy the schemas that are listed for their names. -/
theorem entriesHold_eq_true_iff {properties : List (String × RawJson)} {entries : Document} :
    entriesHold (named properties) entries = true ↔
      ∀ entry ∈ entries, ∀ schema, (entry.1, schema) ∈ properties →
        validates schema entry.2 = true := by
  induction properties with
  | nil => simp [named, entriesHold]
  | cons property rest ih =>
    obtain ⟨name, schema⟩ := property
    rw [named] at ih ⊢
    rw [List.map_cons, entriesHold, StringPiece.text?_ofText, Bool.and_eq_true, ih, List.all_eq_true]
    constructor
    · rintro ⟨hfirst, hrest⟩ entry hentry own hown
      rcases List.mem_cons.1 hown with heq | hown
      · cases heq
        simpa using hfirst entry hentry
      · exact hrest entry hentry own hown
    · intro h
      refine ⟨fun entry hentry => ?_, fun entry hentry own hown =>
        h entry hentry own (List.mem_cons_of_mem _ hown)⟩
      by_cases hname : name = entry.1
      · subst hname
        simp [h entry hentry schema List.mem_cons_self]
      · simp [hname]

/-- The members that describe an object whose properties are rendered. -/
theorem membersHold_object {properties : List (String × RawJson)} {required : List String}
    {additional : Bool} (hdeclared : ∀ property ∈ properties, property.1 ∈ declared)
    (h : ∀ entries, value = .document entries →
      (∀ name ∈ required, name ∈ Assoc.keys entries) ∧
      (additional = false → ∀ name ∈ Assoc.keys entries, name ∈ Assoc.keys properties) ∧
      ∀ entry ∈ entries, ∀ schema, (entry.1, schema) ∈ properties →
        validates schema entry.2 = true) :
    membersHold declared (named (SchemaNode.objectMembers properties required additional)) value =
      true := by
  have hproperties : membersHold declared
      (named [("properties", RawJson.ofMembers properties)]) value = true := by
    rw [membersHold_singleton (by rfl)]
    cases value with
    | document entries => exact entriesHold_eq_true_iff.2 (h entries rfl).2.2
    | _ => rfl
  have hrequired : membersHold declared
      (named (if required.isEmpty then [] else [("required", RawJson.ofTexts required)])) value =
        true := by
    split
    · rfl
    rw [membersHold_singleton (by rfl)]
    cases value with
    | document entries =>
      rw [memberHolds, textsOf?_ofTexts, Option.any_some, List.all_eq_true]
      exact fun name hname => List.contains_iff_mem.2 ((h entries rfl).1 name hname)
    | _ => rfl
  have hadditional : membersHold declared
      (named [("additionalProperties", RawJson.bool additional)]) value = true := by
    rw [membersHold_singleton (by rfl)]
    cases value with
    | document entries =>
      refine List.all_eq_true.2 fun entry hentry => ?_
      rw [Bool.or_eq_true]
      cases hallowed : additional with
      | true => exact .inr rfl
      | false =>
        have hname := (h entries rfl).2.1 hallowed entry.1 (List.mem_map_of_mem hentry)
        obtain ⟨property, hproperty, heq⟩ := List.mem_map.1 hname
        exact .inl (List.contains_iff_mem.2 (heq ▸ hdeclared property hproperty))
    | _ => rfl
  rw [SchemaNode.objectMembers, membersHold_append, membersHold_append, hproperties, hrequired,
    hadditional]
  rfl

/-- The names of the properties are declared in a schema that lists them. -/
theorem mem_declaredNames (before after : List (String × RawJson))
    {properties : List (String × RawJson)} {property : String × RawJson}
    (hproperty : property ∈ properties) : property.1 ∈
      declaredNames (named (before ++ ("properties", RawJson.ofMembers properties) :: after)) := by
  have hmember : (StringPiece.ofText "properties", RawJson.ofMembers properties) ∈
      named (before ++ ("properties", RawJson.ofMembers properties) :: after) :=
    List.mem_map_of_mem (f := fun member : String × RawJson => (StringPiece.ofText member.1, member.2))
      (List.mem_append_right before List.mem_cons_self)
  have hname : property.1 ∈ namesOf (RawJson.ofMembers properties) :=
    List.mem_filterMap.2 ⟨_, List.mem_map_of_mem hproperty, StringPiece.text?_ofText property.1⟩
  have hkeyword : StringPiece.text? (StringPiece.ofText "properties") =
      some Keyword.properties.text := StringPiece.text?_ofText _
  exact List.mem_flatMap.2 ⟨_, hmember, (if_pos hkeyword).symm ▸ hname⟩

end JsonSchema

namespace SchemaNode

/-! ## Nodes -/

/-- The values that a node is about.  The null value is one of them where the
node is nullable; any other value has the type of the node and its form. -/
inductive Admits : SchemaNode → Bson → Prop
  | null {node : SchemaNode} (h : node.notes.nullable = true) : Admits node .null
  | text {format : Option TextFormat} {pattern : Option String} {notes : NodeNotes} {text : String}
      (hformat : format = some .dateTime → Text.isTimestamp text.toList = true)
      (hpattern : ∀ regex, pattern = some regex →
        ∃ form, Pattern.read? regex = some form ∧ form.accepts text = true) :
      Admits (.text format pattern notes) (.string text)
  | number {notes : NodeNotes} {value : Bson}
      (h : JsonSchema.hasTypeName value "number" = true) : Admits (.number notes) value
  | boolean {notes : NodeNotes} (value : Bool) : Admits (.boolean notes) (.bool value)
  | array {items : SchemaNode} {minItems maxItems : Option Nat} {notes : NodeNotes}
      {values : List Bson} (hmin : ∀ count, minItems = some count → count ≤ values.length)
      (hmax : ∀ count, maxItems = some count → values.length ≤ count)
      (hitems : ∀ value ∈ values, Admits items value) :
      Admits (.array items minItems maxItems notes) (.array values)
  | object {properties : List (String × SchemaNode)} {required : List String} {additional : Bool}
      {notes : NodeNotes} {entries : Document}
      (hrequired : ∀ name ∈ required, name ∈ entries.keys)
      (hclosed : additional = false → ∀ name ∈ entries.keys, name ∈ Assoc.keys properties)
      (hproperties : ∀ entry ∈ entries, ∀ node, (entry.1, node) ∈ properties →
        Admits node entry.2) :
      Admits (.object properties required additional notes) (.document entries)

theorem propertiesToRaw_eq_map (properties : List (String × SchemaNode)) :
    propertiesToRaw properties = properties.map fun property => (property.1, property.2.toRaw) := by
  induction properties with
  | nil => rfl
  | cons property rest ih =>
    rw [propertiesToRaw, ih]
    rfl

theorem keys_propertiesToRaw (properties : List (String × SchemaNode)) :
    Assoc.keys (propertiesToRaw properties) = Assoc.keys properties := by
  rw [propertiesToRaw_eq_map, Assoc.keys, List.map_map]
  rfl

/-- Entries satisfy the rendered properties if they satisfy the rendered nodes. -/
theorem validates_of_mem_propertiesToRaw {properties : List (String × SchemaNode)}
    {name : String} {value : Bson} {schema : RawJson}
    (h : ∀ node, (name, node) ∈ properties → JsonSchema.validates node.toRaw value = true)
    (hmem : (name, schema) ∈ propertiesToRaw properties) :
    JsonSchema.validates schema value = true := by
  rw [propertiesToRaw_eq_map] at hmem
  obtain ⟨⟨_, node⟩, hproperty, heq⟩ := List.mem_map.1 hmem
  cases heq
  exact h node hproperty

open JsonSchema

variable {notes : NodeNotes} {value : Bson}

theorem validates_text {format : Option TextFormat} {pattern : Option String}
    (htype : hasTypeName value "string" = true ∨ notes.nullable = true ∧ value = .null)
    (hformat : ∀ text, value = .string text → format = some .dateTime →
      Text.isTimestamp text.toList = true)
    (hpattern : ∀ text regex, value = .string text → pattern = some regex →
      ∃ form, Pattern.read? regex = some form ∧ form.accepts text = true) :
    validates (toRaw (.text format pattern notes)) value = true := by
  refine (validates_ofMembers _ value).trans ?_
  rw [membersHold_append, membersHold_append, membersHold_format hformat,
    membersHold_pattern hpattern, membersHold_notes htype]
  rfl

theorem validates_array {items : SchemaNode} {minItems maxItems : Option Nat}
    (htype : hasTypeName value "array" = true ∨ notes.nullable = true ∧ value = .null)
    (hmin : ∀ values count, value = .array values → minItems = some count → count ≤ values.length)
    (hmax : ∀ values count, value = .array values → maxItems = some count → values.length ≤ count)
    (hitems : ∀ values, value = .array values →
      ∀ element ∈ values, validates items.toRaw element = true) :
    validates (toRaw (.array items minItems maxItems notes)) value = true := by
  refine (validates_ofMembers _ value).trans ?_
  rw [membersHold_append, membersHold_append, membersHold_append, membersHold_items hitems,
    membersHold_minItems hmin, membersHold_maxItems hmax, membersHold_notes htype]
  rfl

theorem validates_object {properties : List (String × SchemaNode)} {required : List String}
    {additional : Bool}
    (htype : hasTypeName value "object" = true ∨ notes.nullable = true ∧ value = .null)
    (h : ∀ entries, value = .document entries →
      (∀ name ∈ required, name ∈ Assoc.keys entries) ∧
      (additional = false → ∀ name ∈ Assoc.keys entries, name ∈ Assoc.keys properties) ∧
      ∀ entry ∈ entries, ∀ node, (entry.1, node) ∈ properties →
        validates node.toRaw entry.2 = true) :
    validates (toRaw (.object properties required additional notes)) value = true := by
  refine (validates_ofMembers _ value).trans ?_
  rw [membersHold_append, membersHold_notes htype, Bool.and_true]
  refine membersHold_object (fun property hproperty => ?_) fun entries hentries => ?_
  · rw [objectMembers, List.append_assoc, List.append_assoc, List.singleton_append]
    exact mem_declaredNames [] _ hproperty
  · obtain ⟨hrequired, hclosed, hproperties⟩ := h entries hentries
    exact ⟨hrequired, keys_propertiesToRaw properties ▸ hclosed, fun entry hentry _ hmem =>
      validates_of_mem_propertiesToRaw (hproperties entry hentry) hmem⟩

/-- A value that a node admits satisfies the schema that the node is rendered
to. -/
theorem validates_toRaw {node : SchemaNode} (h : node.Admits value) :
    validates node.toRaw value = true := by
  induction h with
  | @null node hnull =>
    have htype : ∀ typeName, hasTypeName .null typeName = true ∨
        node.notes.nullable = true ∧ Bson.null = .null := fun _ => .inr ⟨hnull, rfl⟩
    cases node with
    | text format pattern notes =>
      exact validates_text (htype _) (fun _ hvalue => nomatch hvalue) (fun _ _ hvalue => nomatch hvalue)
    | number notes => exact membersHold_notes (htype _)
    | boolean notes => exact membersHold_notes (htype _)
    | array items minItems maxItems notes =>
      exact validates_array (htype _) (fun _ _ hvalue => nomatch hvalue)
        (fun _ _ hvalue => nomatch hvalue) (fun _ hvalue => nomatch hvalue)
    | object properties required additional notes =>
      exact validates_object (htype _) (fun _ hvalue => nomatch hvalue)
  | text hformat hpattern =>
    refine validates_text (.inl rfl) ?_ ?_
    · rintro _ ⟨⟩
      exact hformat
    · rintro _ regex ⟨⟩
      exact hpattern regex
  | number h => exact membersHold_notes (.inl h)
  | boolean value => exact membersHold_notes (.inl rfl)
  | array hmin hmax _ ih =>
    refine validates_array (.inl rfl) ?_ ?_ ?_
    · rintro _ count ⟨⟩
      exact hmin count
    · rintro _ count ⟨⟩
      exact hmax count
    · rintro _ ⟨⟩
      exact ih
  | object hrequired hclosed _ ih =>
    refine validates_object (.inl rfl) ?_
    rintro _ ⟨⟩
    exact ⟨hrequired, hclosed, ih⟩

end SchemaNode

/-- A document that the node of a whole schema admits satisfies the rendered
schema. -/
theorem SchemaTree.validates_toRaw {tree : SchemaTree} {document : Document}
    (h : SchemaNode.Admits (.object tree.root.properties tree.root.required
      tree.root.additionalProperties {}) (.document document)) :
    JsonSchema.validates tree.toRaw (.document document) = true := by
  cases h with
  | object hrequired hclosed hproperties =>
    rw [toRaw, JsonSchema.validates_ofMembers, JsonSchema.membersHold_cons (by rfl),
      Bool.and_eq_true]
    refine ⟨?_, JsonSchema.membersHold_object (fun property hproperty => ?_) ?_⟩
    · rw [JsonSchema.memberHolds, JsonSchema.hasType, JsonSchema.textOf?_ofText]
      rfl
    · rw [SchemaNode.objectMembers, List.append_assoc, List.singleton_append]
      exact JsonSchema.mem_declaredNames [_] _ hproperty
    · rintro _ ⟨⟩
      exact ⟨hrequired, SchemaNode.keys_propertiesToRaw tree.root.properties ▸ hclosed,
        fun entry hentry _ hmem => SchemaNode.validates_of_mem_propertiesToRaw
          (fun node hnode => SchemaNode.validates_toRaw (hproperties entry hentry node hnode)) hmem⟩

end DocGate
