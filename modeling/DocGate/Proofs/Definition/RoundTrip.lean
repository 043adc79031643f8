import DocGate.Definition.Decode
import DocGate.Proofs.Json.Record
import DocGate.Proofs.Json.RoundTrip
import DocGate.Proofs.Schema.Fields

/-!
# Definitions read back

A collection definition that was written as JSON is read back as it was
(`CollectionDefinition.read_render`), if its text does not nest deeper than
the reader goes.

* Each record is written as an object whose keys are names of the record in
  their order, so it is read back if its field values are.
* Fields nest in the content of a field and in the elements of an array.
  `FieldDefinition.ofRaw?_toRaw` is the induction on the definition, with a level
  less for each array and each object.
* Indexes hold lists of records, and a direction that may be absent.
-/

namespace DocGate

/-! ## Fields -/

namespace FieldKind

theorem get?_choices (kind : FieldKind) : choices.get? kind.name = some kind := by
  cases kind <;> decide

end FieldKind

namespace FieldDefinition

/-- The members of the object that a field is written as. -/
def members (field : FieldDefinition) : List (String × RawJson) :=
  [("name", RawJson.ofText field.name), ("type", RawJson.ofText field.kind.name),
    ("required", .bool field.required), ("nullable", .bool field.nullable)] ++
    RawJson.optionalMember "description" (field.description.map RawJson.ofText) ++
    RawJson.optionalMember "schema" (schemaToRaw field.schema) ++
    RawJson.optionalMember "items" (itemsToRaw field.items)

theorem toRaw_eq (field : FieldDefinition) : field.toRaw = RawJson.ofMembers field.members := by
  cases field
  rw [toRaw, members]

theorem toRaw_ne_null (field : FieldDefinition) : field.toRaw ≠ .null := by
  rw [toRaw_eq]
  exact RawJson.noConfusion

theorem itemsToRaw_eq (items : Option FieldDefinition) : itemsToRaw items = items.map toRaw := by
  cases items with
  | none => rw [itemsToRaw, Option.map_none]
  | some item => rw [itemsToRaw, Option.map_some]

theorem propertiesToRaw_eq (fields : List FieldDefinition) :
    propertiesToRaw fields = fields.map toRaw := by
  induction fields with
  | nil => rw [propertiesToRaw, List.map_nil]
  | cons field rest ih => rw [propertiesToRaw, ih, List.map_cons]

/-- The members of the object that the content of a field is written as. -/
def contentMembers (nested : NestedFields FieldDefinition) : List (String × RawJson) :=
  RawJson.optionalMember "properties" (nested.properties.map listToRaw) ++
    [("additionalProperties", .bool nested.additionalProperties)]

theorem schemaToRaw_some (nested : NestedFields FieldDefinition) :
    schemaToRaw (some nested) = some (RawJson.ofMembers (contentMembers nested)) := by
  obtain ⟨properties, additional⟩ := nested
  cases properties with
  | none =>
    rw [schemaToRaw]
    rfl
  | some fields =>
    rw [schemaToRaw]
    rfl

theorem keys_members (field : FieldDefinition) : (Assoc.keys field.members).Sublist
    ["name", "type", "required", "nullable", "description", "schema", "items"] := by
  have hkeys : Assoc.keys field.members = ["name", "type", "required", "nullable"] ++
      Assoc.keys (RawJson.optionalMember "description" (field.description.map RawJson.ofText)) ++
      Assoc.keys (RawJson.optionalMember "schema" (schemaToRaw field.schema)) ++
      Assoc.keys (RawJson.optionalMember "items" (itemsToRaw field.items)) := by
    simp [members, Assoc.keys]
  rw [hkeys]
  exact (((List.Sublist.refl ["name", "type", "required", "nullable"]).append
    (RawJson.keys_optionalMember _ _)).append (RawJson.keys_optionalMember _ _)).append
      (RawJson.keys_optionalMember _ _)

/-- A field is read back if its content and the definition of its elements are. -/
theorem ofRaw?_succ {depth : Nat} {field : FieldDefinition}
    (hschema : RawJson.optional? (fun value => NestedFields.ofRaw? depth value)
      (schemaToRaw field.schema) = some field.schema)
    (hitems : RawJson.optional? (fun value => ofRaw? depth value)
      (itemsToRaw field.items) = some field.items) :
    ofRaw? (depth + 1) field.toRaw = some field := by
  have hdescription : RawJson.optional? RawJson.text? (field.description.map RawJson.ofText) =
      some field.description :=
    RawJson.optional?_map (fun _ => RawJson.noConfusion) fun text _ => RawJson.text?_ofText text
  have hget : Assoc.get? field.members "name" = some (RawJson.ofText field.name) ∧
      Assoc.get? field.members "type" = some (RawJson.ofText field.kind.name) ∧
      Assoc.get? field.members "required" = some (.bool field.required) ∧
      Assoc.get? field.members "nullable" = some (.bool field.nullable) ∧
      Assoc.get? field.members "description" = field.description.map RawJson.ofText ∧
      Assoc.get? field.members "schema" = schemaToRaw field.schema ∧
      Assoc.get? field.members "items" = itemsToRaw field.items := by
    simp [members, Assoc.get?_append, Assoc.get?, RawJson.get?_optionalMember]
  obtain ⟨hname, htype, hrequired, hnullable, hdescribed, hcontent, helements⟩ := hget
  rw [toRaw_eq, ofRaw?, RawJson.record?_ofMembers field.keys_members (by decide)]
  simp only [Option.bind_eq_bind, Option.bind_some, hname, htype, hrequired, hnullable,
    hdescribed, hcontent, helements, hdescription, hschema, hitems, RawJson.orElse?,
    RawJson.required?, RawJson.text?_ofText, RawJson.choice?_ofText, FieldKind.get?_choices,
    RawJson.bool?]
  cases field
  rfl

theorem listOfRaw?_succ {depth : Nat} {fields : List FieldDefinition}
    (h : ∀ field ∈ fields, ofRaw? depth field.toRaw = some field) :
    listOfRaw? (depth + 1) (listToRaw fields) = some fields := by
  rw [listToRaw, propertiesToRaw_eq, listOfRaw?]
  exact mapM_map_eq_some h

/-- The content of a field is read back if the fields that it lists are. -/
theorem nestedOfRaw?_succ {depth : Nat} {nested : NestedFields FieldDefinition}
    (h : ∀ fields, nested.properties = some fields →
      listOfRaw? depth (listToRaw fields) = some fields) :
    NestedFields.ofRaw? (depth + 1) (RawJson.ofMembers (contentMembers nested)) =
      some nested := by
  have hkeys : (Assoc.keys (contentMembers nested)).Sublist
      ["properties", "additionalProperties"] := by
    have happend : Assoc.keys (contentMembers nested) =
        Assoc.keys (RawJson.optionalMember "properties" (nested.properties.map listToRaw)) ++
          ["additionalProperties"] := by
      simp [contentMembers, Assoc.keys]
    rw [happend]
    exact (RawJson.keys_optionalMember _ _).append (List.Sublist.refl _)
  have hget : Assoc.get? (contentMembers nested) "properties" =
        nested.properties.map listToRaw ∧
      Assoc.get? (contentMembers nested) "additionalProperties" =
        some (.bool nested.additionalProperties) := by
    simp [contentMembers, Assoc.get?_append, Assoc.get?, RawJson.get?_optionalMember]
  have hproperties : RawJson.optional? (fun value => listOfRaw? depth value)
      (nested.properties.map listToRaw) = some nested.properties :=
    RawJson.optional?_map (fun _ => RawJson.noConfusion) h
  rw [NestedFields.ofRaw?, RawJson.record?_ofMembers hkeys (by decide)]
  simp only [Option.bind_eq_bind, Option.bind_some, hget.1, hget.2, hproperties, RawJson.orElse?,
    RawJson.bool?]
  rfl

/-- A field is read back by a reader that goes as deep as the field nests. -/
theorem ofRaw?_toRaw (field : FieldDefinition) :
    ∀ depth, field.toRaw.nesting ≤ depth → ofRaw? depth field.toRaw = some field := by
  induction field using FieldDefinition.induction with
  | step field hcontent hitem =>
    intro depth hdepth
    rw [toRaw_eq] at hdepth
    obtain ⟨lower, rfl, hlower⟩ := RawJson.exists_succ_of_nesting_ofMembers hdepth
    refine ofRaw?_succ ?schema ?items
    case items =>
      rw [itemsToRaw_eq]
      refine RawJson.optional?_map toRaw_ne_null fun item hitems => ?_
      refine hitem item hitems lower (hlower "items" item.toRaw ?_)
      simp [members, hitems, itemsToRaw, RawJson.optionalMember]
    case schema =>
      cases hschema : field.schema with
      | none =>
        rw [schemaToRaw]
        rfl
      | some nested =>
        have hnested := hlower "schema" (RawJson.ofMembers (contentMembers nested)) (by
          simp [members, hschema, schemaToRaw_some, RawJson.optionalMember])
        obtain ⟨inner, rfl, hinner⟩ := RawJson.exists_succ_of_nesting_ofMembers hnested
        have hread : NestedFields.ofRaw? (inner + 1)
            (RawJson.ofMembers (contentMembers nested)) = some nested := by
          refine nestedOfRaw?_succ fun fields hfields => ?_
          have hlist := hinner "properties" (listToRaw fields) (by
            simp [contentMembers, hfields, RawJson.optionalMember])
          rw [listToRaw, propertiesToRaw_eq] at hlist
          obtain ⟨innermost, rfl, hinnermost⟩ := RawJson.exists_succ_of_nesting_array hlist
          refine listOfRaw?_succ fun listed hlisted => ?_
          refine hcontent listed ?_ innermost (hinnermost _ (List.mem_map_of_mem hlisted))
          obtain ⟨properties, additional⟩ := nested
          obtain rfl : properties = some fields := hfields
          rw [content, hschema]
          exact hlisted
        rw [schemaToRaw_some]
        show (NestedFields.ofRaw? (inner + 1)
          (RawJson.ofMembers (contentMembers nested))).map some = _
        rw [hread]
        rfl

/-- A list of fields is read back by a reader that goes as deep as it nests. -/
theorem listOfRaw?_listToRaw {fields : List FieldDefinition} {depth : Nat}
    (h : (listToRaw fields).nesting ≤ depth) :
    listOfRaw? depth (listToRaw fields) = some fields := by
  have hdepth := h
  rw [listToRaw, propertiesToRaw_eq] at hdepth
  obtain ⟨lower, rfl, hlower⟩ := RawJson.exists_succ_of_nesting_array hdepth
  refine listOfRaw?_succ fun field hfield => ?_
  exact ofRaw?_toRaw field lower (hlower _ (List.mem_map_of_mem hfield))

end FieldDefinition

/-! ## Indexes -/

theorem IndexKind.get?_choices (kind : IndexKind) :
    Assoc.get? (IndexKind.all.map fun kind => (kind.name, kind)) kind.name = some kind := by
  cases kind <;> decide

/-- A field of an index is read back by a reader that has a level left. -/
theorem IndexField.ofRaw?_toRaw (field : IndexField) {depth : Nat}
    (h : field.toRaw.nesting ≤ depth) : IndexField.ofRaw? depth field.toRaw = some field := by
  obtain ⟨lower, rfl, -⟩ := RawJson.exists_succ_of_nesting_ofMembers h
  have hkeys : (Assoc.keys (("name", RawJson.ofText field.name) ::
      RawJson.optionalMember "order" (field.order.map fun order => RawJson.ofInt order.toInt))).Sublist
      ["name", "order"] :=
    (RawJson.keys_optionalMember _ _).cons_cons "name"
  have horder : RawJson.optional? RawJson.int32?
      (field.order.map fun order => RawJson.ofInt order.toInt) = some field.order :=
    RawJson.optional?_map (fun _ => RawJson.noConfusion) fun order _ => RawJson.int32?_ofInt order
  rw [toRaw, IndexField.ofRaw?, RawJson.record?_ofMembers hkeys (by decide)]
  simp only [Option.bind_eq_bind, Option.bind_some, Assoc.get?, String.reduceEq, ↓reduceIte,
    RawJson.get?_optionalMember, horder, RawJson.required?, RawJson.text?_ofText]
  rfl

/-- An index is read back by a reader that goes as deep as the index nests. -/
theorem IndexDefinition.ofRaw?_toRaw (index : IndexDefinition) {depth : Nat}
    (h : index.toRaw.nesting ≤ depth) : IndexDefinition.ofRaw? depth index.toRaw = some index := by
  obtain ⟨lower, rfl, hlower⟩ := RawJson.exists_succ_of_nesting_ofMembers h
  have hlist := hlower "fields" (.array (index.fields.map IndexField.toRaw)) (by simp)
  obtain ⟨inner, rfl, hinner⟩ := RawJson.exists_succ_of_nesting_array hlist
  have hfields : RawJson.list? IndexField.ofRaw? (inner + 1)
      (.array (index.fields.map IndexField.toRaw)) = some index.fields :=
    RawJson.list?_array fun field hfield =>
      field.ofRaw?_toRaw (hinner _ (List.mem_map_of_mem hfield))
  rw [toRaw, IndexDefinition.ofRaw?, RawJson.record?_ofMembers]
  · simp only [Option.bind_eq_bind, Option.bind_some, Assoc.get?, String.reduceEq, ↓reduceIte,
      RawJson.required?, RawJson.orElse?, RawJson.text?_ofText, RawJson.choice?_ofText,
      IndexKind.get?_choices, RawJson.bool?, hfields]
    rfl
  · exact List.Sublist.refl _
  · decide

/-! ## Collections -/

theorem DocumentState.get?_choices (state : DocumentState) :
    Assoc.get? (DocumentState.all.map fun state => (state.text, state)) state.text = some state := by
  cases state <;> decide

namespace CollectionDefinition

/-- A collection definition is read back by a reader that goes as deep as the
definition nests. -/
theorem ofRaw?_toRaw (definition : CollectionDefinition) {depth : Nat}
    (h : definition.toRaw.nesting ≤ depth) : ofRaw? depth definition.toRaw = some definition := by
  obtain ⟨lower, rfl, hlower⟩ := RawJson.exists_succ_of_nesting_ofMembers h
  have hfields : FieldDefinition.listOfRaw? lower (FieldDefinition.listToRaw definition.fields) =
      some definition.fields :=
    FieldDefinition.listOfRaw?_listToRaw (hlower "fields" _ (by simp))
  have hlist := hlower "indexes" (.array (definition.indexes.map IndexDefinition.toRaw)) (by simp)
  obtain ⟨inner, rfl, hinner⟩ := RawJson.exists_succ_of_nesting_array hlist
  have hindexes : RawJson.list? IndexDefinition.ofRaw? (inner + 1)
      (.array (definition.indexes.map IndexDefinition.toRaw)) = some definition.indexes :=
    RawJson.list?_array fun index hindex =>
      index.ofRaw?_toRaw (hinner _ (List.mem_map_of_mem hindex))
  rw [toRaw, ofRaw?, RawJson.record?_ofMembers]
  · simp only [Option.bind_eq_bind, Option.bind_some, Assoc.get?, String.reduceEq, ↓reduceIte,
      RawJson.required?, RawJson.orElse?, RawJson.text?_ofText, RawJson.choice?_ofText,
      DocumentState.get?_choices, hfields, hindexes]
    rfl
  · exact List.Sublist.refl _
  · decide

/-- A collection definition is read back from its text as it was written, if
the text does not nest deeper than the reader goes. -/
theorem read_render (definition : CollectionDefinition)
    (hnesting : definition.toRaw.nesting ≤ Json.maxDepth) :
    CollectionDefinition.read (RawJson.render definition.toRaw) = .ok definition := by
  rw [CollectionDefinition.read, RawJson.read?_render, Option.bind_some,
    ofRaw?_toRaw definition hnesting]

/-- A collection with nested content in an array, text that needs escapes, and
indexes with and without a direction. -/
def archive : CollectionDefinition where
  name := "archive \"α\"\n"
  endpointBasePath := "/archive\\\x01"
  defaultState := .trash
  fields :=
    [{ name := "", kind := .rawObject, description := some "\x7f😀",
       schema := some ⟨none, false⟩ },
      { FieldDefinition.array "parts"
          (.rawObject "" [{ name := "weight", kind := .number, nullable := true }]) with
        required := true }]
  indexes := [{ name := "recent", kind := .geo, unique := true,
                fields := [{ name := "day", order := some (-1) }, { name := "part" }] }]

theorem read_render_archive :
    archive.toRaw.nesting ≤ Json.maxDepth ∧
      CollectionDefinition.read (RawJson.render archive.toRaw) = .ok archive := by
  have hnesting : archive.toRaw.nesting ≤ Json.maxDepth := by decide +kernel
  exact ⟨hnesting, read_render archive hnesting⟩

end CollectionDefinition

end DocGate
