import DocGate.Proofs.Json.Record
import DocGate.Proofs.Schema.Placement
import DocGate.Proofs.Schema.Validation

/-!
# Nothing is lost in a rendered schema

Schemas of field lists that are rendered to the same JSON Schema are the same.

* Reading back.  Texts, counts and objects are rendered differently if they differ.
* Members.  A rendered node is an object with the members `SchemaNode.members`, and
  lemmas by the name `get?_` say what is found there under each keyword.
* Nodes.  The cast annotation of a node is not read back, as its path is rendered to a
  text that does not tell a field `a.b` from a field `b` in an object `a`.  It is known
  from the place of the node, so nodes at the same place that are rendered to the same
  JSON are equal (`SchemaNode.eq_of_toRaw_eq`).
-/

namespace DocGate

/-! ## Reading back -/

namespace RawJson

open JsonSchema

theorem ofText_injective : Function.Injective ofText := by
  intro text other h
  have hread := congrArg textOf? h
  rw [textOf?_ofText, textOf?_ofText] at hread
  exact Option.some.inj hread

theorem ofTexts_injective : Function.Injective ofTexts := by
  intro texts others h
  have hread := congrArg textsOf? h
  rw [textsOf?_ofTexts, textsOf?_ofTexts] at hread
  exact Option.some.inj hread

theorem ofCount_injective : Function.Injective fun count : Nat => ofInt count := by
  intro count other h
  have hread := congrArg countOf? h
  rw [countOf?_ofInt, countOf?_ofInt] at hread
  exact Option.some.inj hread

theorem ofMembers_injective : Function.Injective ofMembers := by
  have hmember : Function.Injective
      fun member : String × RawJson => (StringPiece.ofText member.1, member.2) := by
    intro ⟨name, body⟩ ⟨name', body'⟩ h
    obtain ⟨hname, hbody⟩ := Prod.mk.inj h
    exact Prod.ext (ofText_injective (congrArg RawJson.string hname)) hbody
  intro members others h
  exact List.map_injective_iff.2 hmember (RawJson.object.inj h)

end RawJson

/-! ## Members -/

open RawJson (optionalMember get?_optionalMember)

/-- What is rendered for the type of a node. -/
def NodeNotes.typeBody (typeName : String) (nullable : Bool) : RawJson :=
  if nullable then RawJson.ofTexts [typeName, "null"] else RawJson.ofText typeName

theorem NodeNotes.typeBody_inj {typeName other : String} {nullable nullable' : Bool}
    (h : typeBody typeName nullable = typeBody other nullable') :
    typeName = other ∧ nullable = nullable' := by
  cases nullable <;> cases nullable'
  · exact ⟨RawJson.ofText_injective h, rfl⟩
  · cases h
  · cases h
  · exact ⟨(List.cons.inj (RawJson.ofTexts_injective h)).1, rfl⟩

namespace SchemaNode

/-- The name of the type of a node. -/
def typeName : SchemaNode → String
  | text .. => "string"
  | number .. => "number"
  | boolean .. => "boolean"
  | array .. => "array"
  | object .. => "object"

/-- The members of a node that are not those of its notes. -/
def ownMembers : SchemaNode → List (String × RawJson)
  | text format pattern _ => formatMember format ++ patternMember pattern
  | number _ => []
  | boolean _ => []
  | array items least greatest _ =>
    [("items", items.toRaw)] ++ boundMember "minItems" least ++ boundMember "maxItems" greatest
  | object properties required additional _ =>
    objectMembers (propertiesToRaw properties) required additional

/-- The members of a rendered node. -/
def members (node : SchemaNode) : Assoc RawJson :=
  node.ownMembers ++ node.notes.members node.typeName

theorem toRaw_eq_ofMembers (node : SchemaNode) : node.toRaw = RawJson.ofMembers node.members := by
  cases node <;> rfl

theorem members_eq_of_toRaw_eq {node other : SchemaNode} (h : node.toRaw = other.toRaw) :
    node.members = other.members := by
  rw [toRaw_eq_ofMembers, toRaw_eq_ofMembers] at h
  exact RawJson.ofMembers_injective h

theorem get?_formatMember (format : Option TextFormat) (key : String) :
    Assoc.get? (formatMember format) key =
      if "format" = key then format.map fun _ => RawJson.ofText "date-time" else none := by
  have heq : formatMember format =
      optionalMember "format" (format.map fun _ => RawJson.ofText "date-time") := by
    cases format <;> rfl
  rw [heq, get?_optionalMember]

theorem get?_patternMember (pattern : Option String) (key : String) :
    Assoc.get? (patternMember pattern) key =
      if "pattern" = key then pattern.map RawJson.ofText else none := by
  have heq : patternMember pattern = optionalMember "pattern" (pattern.map RawJson.ofText) := by
    cases pattern <;> rfl
  rw [heq, get?_optionalMember]

theorem get?_boundMember (name : String) (bound : Option Nat) (key : String) :
    Assoc.get? (boundMember name bound) key =
      if name = key then bound.map fun count : Nat => RawJson.ofInt count else none := by
  have heq : boundMember name bound =
      optionalMember name (bound.map fun count : Nat => RawJson.ofInt count) := by
    cases bound <;> rfl
  rw [heq, get?_optionalMember]

/-- What is rendered for the names of the required properties. -/
def requiredBody (required : List String) : Option RawJson :=
  if required.isEmpty then none else some (RawJson.ofTexts required)

theorem requiredBody_injective : Function.Injective requiredBody := by
  intro required others h
  cases required with
  | nil =>
    cases others with
    | nil => rfl
    | cons => cases h
  | cons =>
    cases others with
    | nil => cases h
    | cons => exact RawJson.ofTexts_injective (Option.some.inj h)

theorem get?_objectMembers (properties : List (String × RawJson)) (required : List String)
    (additional : Bool) (key : String) :
    Assoc.get? (objectMembers properties required additional) key =
      if "properties" = key then some (RawJson.ofMembers properties)
      else if "required" = key then requiredBody required
      else if "additionalProperties" = key then some (.bool additional) else none := by
  have heq : objectMembers properties required additional =
      [("properties", RawJson.ofMembers properties)] ++
        (optionalMember "required" (requiredBody required) ++
          [("additionalProperties", .bool additional)]) := by
    cases required <;> rfl
  rw [heq, Assoc.get?_append, Assoc.get?_append, get?_optionalMember]
  simp only [Assoc.get?]
  split
  · rfl
  split
  · rename_i hkey
    rw [if_neg (by rw [← hkey]; decide), Option.or_none, Option.none_or]
  · rfl

/-- The keywords of the notes. -/
def noteKeywords : List String :=
  ["type", "description", NodeNotes.castKeyword]

/-- The other keywords of a node. -/
def ownKeywords : List String :=
  ["format", "pattern", "items", "minItems", "maxItems", "properties", "required",
    "additionalProperties"]

theorem not_mem_noteKeywords : ∀ key ∈ ownKeywords, key ∉ noteKeywords := by
  decide

theorem notesMembers_eq (typeName : String) (notes : NodeNotes) :
    notes.members typeName =
      ("type", NodeNotes.typeBody typeName notes.nullable) ::
        (optionalMember "description" (notes.description.map RawJson.ofText) ++
          optionalMember NodeNotes.castKeyword (notes.cast.map fun target =>
            RawJson.ofMembers [("kind", RawJson.ofText target.kind.name),
              ("path", RawJson.ofText target.path.text)])) := by
  rw [NodeNotes.members]
  cases notes.description <;> cases notes.cast <;> rfl

/-- A keyword of the notes is none of the other members of a node. -/
theorem get?_ownMembers_of_note (node : SchemaNode) {key : String} (hkey : key ∈ noteKeywords) :
    Assoc.get? node.ownMembers key = none := by
  have hne : ∀ own ∈ ownKeywords, own ≠ key :=
    fun own hown heq => not_mem_noteKeywords own hown (heq ▸ hkey)
  simp only [ownKeywords, List.forall_mem_cons] at hne
  obtain ⟨hformat, hpattern, hitems, hleast, hgreatest, hproperties, hrequired, hadditional, _⟩ :=
    hne
  cases node with
  | text => simp [ownMembers, Assoc.get?_append, get?_formatMember, get?_patternMember, hformat,
      hpattern]
  | number => rfl
  | boolean => rfl
  | array => simp [ownMembers, Assoc.get?_append, get?_boundMember, Assoc.get?, hitems, hleast,
      hgreatest]
  | object => simp [ownMembers, get?_objectMembers, hproperties, hrequired, hadditional]

theorem get?_members_type (node : SchemaNode) : node.members.get? "type" =
    some (NodeNotes.typeBody node.typeName node.notes.nullable) := by
  rw [members, Assoc.get?_append, get?_ownMembers_of_note node (by decide), notesMembers_eq,
    Assoc.get?, if_pos rfl, Option.none_or]

theorem get?_members_description (node : SchemaNode) : node.members.get? "description" =
    node.notes.description.map RawJson.ofText := by
  rw [members, Assoc.get?_append, get?_ownMembers_of_note node (by decide), notesMembers_eq,
    Assoc.get?, if_neg (by decide), Assoc.get?_append, get?_optionalMember, get?_optionalMember,
    if_pos rfl, if_neg (by decide), Option.or_none, Option.none_or]

theorem get?_members_own (node : SchemaNode) {key : String} (hkey : key ∉ noteKeywords) :
    node.members.get? key = Assoc.get? node.ownMembers key := by
  simp only [noteKeywords, List.mem_cons, List.not_mem_nil, or_false, not_or] at hkey
  obtain ⟨htype, hdescription, hcast⟩ := hkey
  rw [members, Assoc.get?_append, notesMembers_eq, Assoc.get?, if_neg (Ne.symm htype),
    Assoc.get?_append, get?_optionalMember, get?_optionalMember, if_neg (Ne.symm hdescription),
    if_neg (Ne.symm hcast), Option.or_none, Option.or_none]

/-! ## Nodes -/

theorem mem_places_self (path : FieldPath) (node : SchemaNode) :
    ⟨path, node⟩ ∈ node.places path := by
  cases node <;> exact List.mem_cons_self

section
variable {node other : SchemaNode}

/-- Nodes that are rendered to the same JSON have the same type, with or without null. -/
theorem type_eq_of_toRaw_eq (h : node.toRaw = other.toRaw) :
    node.typeName = other.typeName ∧ node.notes.nullable = other.notes.nullable := by
  have htype := congrArg (fun members => Assoc.get? members "type") (members_eq_of_toRaw_eq h)
  simp only [get?_members_type] at htype
  exact NodeNotes.typeBody_inj (Option.some.inj htype)

/-- Nodes that are rendered to the same JSON have the same description. -/
theorem description_eq_of_toRaw_eq (h : node.toRaw = other.toRaw) :
    node.notes.description = other.notes.description := by
  have hdescription :=
    congrArg (fun members => Assoc.get? members "description") (members_eq_of_toRaw_eq h)
  simp only [get?_members_description] at hdescription
  exact Option.map_injective RawJson.ofText_injective hdescription

/-- Nodes that are rendered to the same JSON agree on the other keywords. -/
theorem own_eq_of_toRaw_eq (h : node.toRaw = other.toRaw) {key : String}
    (hkey : key ∈ ownKeywords) :
    Assoc.get? node.ownMembers key = Assoc.get? other.ownMembers key := by
  have hown := not_mem_noteKeywords key hkey
  rw [← get?_members_own node hown, ← get?_members_own other hown, members_eq_of_toRaw_eq h]

/-- Nodes with the same form at the same place that are rendered to the same JSON have
the same notes.  The cast is known from the form and the place. -/
theorem notes_eq_of_toRaw_eq {path : FieldPath} (h : node.toRaw = other.toRaw)
    (hkind : node.castKind? = other.castKind?) (hnode : Annotated (node.places path))
    (hother : Annotated (other.places path)) : node.notes = other.notes := by
  have hnullable := (type_eq_of_toRaw_eq h).2
  have hdescription := description_eq_of_toRaw_eq h
  have hcast : node.notes.cast = other.notes.cast := by
    rw [hnode _ (mem_places_self path node), hother _ (mem_places_self path other), Place.target?,
      Place.target?, hkind]
  cases hnotes : node.notes
  cases hothers : other.notes
  simp only [hnotes, hothers] at hnullable hdescription hcast
  rw [hnullable, hdescription, hcast]

end

theorem own_eq_of_text {format format' : Option TextFormat} {pattern pattern' : Option String}
    {notes notes' : NodeNotes}
    (h : toRaw (.text format pattern notes) = toRaw (.text format' pattern' notes')) :
    format = format' ∧ pattern = pattern' := by
  have hformat : (format.map fun _ => RawJson.ofText "date-time") =
      format'.map fun _ => RawJson.ofText "date-time" := by
    simpa [ownMembers, Assoc.get?_append, get?_formatMember, get?_patternMember]
      using own_eq_of_toRaw_eq h (by decide : "format" ∈ ownKeywords)
  have hpattern : pattern.map RawJson.ofText = pattern'.map RawJson.ofText := by
    simpa [ownMembers, Assoc.get?_append, get?_formatMember, get?_patternMember]
      using own_eq_of_toRaw_eq h (by decide : "pattern" ∈ ownKeywords)
  refine ⟨?_, Option.map_injective RawJson.ofText_injective hpattern⟩
  cases format <;> cases format' <;> first | rfl | cases hformat

theorem own_eq_of_array {items items' : SchemaNode} {least least' greatest greatest' : Option Nat}
    {notes notes' : NodeNotes}
    (h : toRaw (.array items least greatest notes) =
      toRaw (.array items' least' greatest' notes')) :
    items.toRaw = items'.toRaw ∧ least = least' ∧ greatest = greatest' := by
  have hitems : items.toRaw = items'.toRaw := by
    simpa [ownMembers, Assoc.get?_append, get?_boundMember, Assoc.get?]
      using own_eq_of_toRaw_eq h (by decide : "items" ∈ ownKeywords)
  have hleast : (least.map fun count : Nat => RawJson.ofInt count) =
      least'.map fun count : Nat => RawJson.ofInt count := by
    simpa [ownMembers, Assoc.get?_append, get?_boundMember, Assoc.get?]
      using own_eq_of_toRaw_eq h (by decide : "minItems" ∈ ownKeywords)
  have hgreatest : (greatest.map fun count : Nat => RawJson.ofInt count) =
      greatest'.map fun count : Nat => RawJson.ofInt count := by
    simpa [ownMembers, Assoc.get?_append, get?_boundMember, Assoc.get?]
      using own_eq_of_toRaw_eq h (by decide : "maxItems" ∈ ownKeywords)
  exact ⟨hitems, Option.map_injective RawJson.ofCount_injective hleast,
    Option.map_injective RawJson.ofCount_injective hgreatest⟩

theorem objectMembers_inj {properties properties' : List (String × RawJson)}
    {required required' : List String} {additional additional' : Bool}
    (h : ∀ key ∈ ownKeywords, Assoc.get? (objectMembers properties required additional) key =
        Assoc.get? (objectMembers properties' required' additional') key) :
    properties = properties' ∧ required = required' ∧ additional = additional' := by
  have hproperties : RawJson.ofMembers properties = RawJson.ofMembers properties' := by
    simpa [get?_objectMembers] using h "properties" (by decide)
  have hrequired : requiredBody required = requiredBody required' := by
    simpa [get?_objectMembers] using h "required" (by decide)
  have hadditional : additional = additional' := by
    simpa [get?_objectMembers] using h "additionalProperties" (by decide)
  exact ⟨RawJson.ofMembers_injective hproperties, requiredBody_injective hrequired, hadditional⟩

mutual

/-- Nodes at the same place that are rendered to the same JSON are equal. -/
theorem eq_of_toRaw_eq : ∀ (node other : SchemaNode) (path : FieldPath),
    Annotated (node.places path) → Annotated (other.places path) →
      node.toRaw = other.toRaw → node = other
  | .text format pattern notes, other, path, hnode, hother, h => by
    have htype := (type_eq_of_toRaw_eq h).1
    cases other with
    | text format' pattern' notes' =>
      obtain ⟨rfl, rfl⟩ := own_eq_of_text h
      have hnotes := notes_eq_of_toRaw_eq h rfl hnode hother
      exact congrArg (SchemaNode.text format pattern) hnotes
    | _ => simp [typeName] at htype
  | .number notes, other, path, hnode, hother, h => by
    have htype := (type_eq_of_toRaw_eq h).1
    cases other with
    | number notes' =>
      have hnotes := notes_eq_of_toRaw_eq h rfl hnode hother
      exact congrArg SchemaNode.number hnotes
    | _ => simp [typeName] at htype
  | .boolean notes, other, path, hnode, hother, h => by
    have htype := (type_eq_of_toRaw_eq h).1
    cases other with
    | boolean notes' =>
      have hnotes := notes_eq_of_toRaw_eq h rfl hnode hother
      exact congrArg SchemaNode.boolean hnotes
    | _ => simp [typeName] at htype
  | .array items least greatest notes, other, path, hnode, hother, h => by
    have htype := (type_eq_of_toRaw_eq h).1
    cases other with
    | array items' least' greatest' notes' =>
      obtain ⟨hitems, rfl, rfl⟩ := own_eq_of_array h
      have hnotes := notes_eq_of_toRaw_eq h rfl hnode hother
      have heq := eq_of_toRaw_eq items items' (path ++ [.items])
        (fun place hplace => hnode place (List.mem_cons_of_mem _ hplace))
        (fun place hplace => hother place (List.mem_cons_of_mem _ hplace)) hitems
      exact congrArg₂ (fun items notes => SchemaNode.array items least greatest notes) heq hnotes
    | _ => simp [typeName] at htype
  | .object properties required additional notes, other, path, hnode, hother, h => by
    have htype := (type_eq_of_toRaw_eq h).1
    cases other with
    | object properties' required' additional' notes' =>
      obtain ⟨hproperties, rfl, rfl⟩ := objectMembers_inj fun _ hkey => own_eq_of_toRaw_eq h hkey
      have hnotes := notes_eq_of_toRaw_eq h rfl hnode hother
      have heq := eq_of_propertiesToRaw_eq properties properties' path
        (fun place hplace => hnode place (List.mem_cons_of_mem _ hplace))
        (fun place hplace => hother place (List.mem_cons_of_mem _ hplace)) hproperties
      exact congrArg₂ (fun properties notes =>
        SchemaNode.object properties required additional notes) heq hnotes
    | _ => simp [typeName] at htype

/-- Properties of the same object that are rendered to the same JSON are equal. -/
theorem eq_of_propertiesToRaw_eq : ∀ (properties others : List (String × SchemaNode))
    (path : FieldPath), Annotated (propertyPlaces path properties) →
      Annotated (propertyPlaces path others) →
        propertiesToRaw properties = propertiesToRaw others → properties = others
  | [], [], _, _, _, _ => rfl
  | [], _ :: _, _, _, _, h => nomatch h
  | _ :: _, [], _, _, _, h => nomatch h
  | (name, node) :: rest, (name', node') :: rest', path, hnodes, hothers, h => by
    obtain ⟨hfirst, hrest⟩ := List.cons.inj h
    obtain ⟨rfl, hnode⟩ := Prod.mk.inj hfirst
    have heq := eq_of_toRaw_eq node node' (path ++ [.field name])
      (fun place hplace => hnodes place (List.mem_append_left _ hplace))
      (fun place hplace => hothers place (List.mem_append_left _ hplace)) hnode
    have heqs := eq_of_propertiesToRaw_eq rest rest' path
      (fun place hplace => hnodes place (List.mem_append_right _ hplace))
      (fun place hplace => hothers place (List.mem_append_right _ hplace)) hrest
    rw [heq, heqs]

end

end SchemaNode

/-! ## Whole schemas -/

namespace SchemaTree

variable {fields others : List FieldDefinition} {tree other : SchemaTree}

/-- The root of a schema is known from what it is rendered to. -/
theorem root_eq_of_toRaw_eq (h : ofFields fields = .ok tree) (hother : ofFields others = .ok other)
    (hraw : tree.toRaw = other.toRaw) : tree.root = other.root := by
  have hmembers := (List.cons.inj (RawJson.ofMembers_injective hraw)).2
  obtain ⟨hproperties, hrequired, hadditional⟩ :=
    SchemaNode.objectMembers_inj fun key _ =>
      congrArg (fun members => Assoc.get? members key) hmembers
  have heq := SchemaNode.eq_of_propertiesToRaw_eq tree.root.properties other.root.properties []
    (located_of_ofFields h).annotated (located_of_ofFields hother).annotated hproperties
  cases hroot : tree.root
  cases hroot' : other.root
  simp only [hroot, hroot'] at heq hrequired hadditional
  rw [heq, hrequired, hadditional]

/-- Schemas of field lists that are rendered to the same JSON Schema are the same, with
their cast targets. -/
theorem toRaw_determines (h : ofFields fields = .ok tree) (hother : ofFields others = .ok other)
    (hraw : tree.toRaw = other.toRaw) : tree = other := by
  have hroot := root_eq_of_toRaw_eq h hother hraw
  have htargets : tree.castTargets = other.castTargets := by
    rw [(located_of_ofFields h).listed, (located_of_ofFields hother).listed, places, places, hroot]
  obtain ⟨_, _⟩ := tree
  obtain ⟨_, _⟩ := other
  obtain rfl := hroot
  obtain rfl := htargets
  rfl

/-- Tags whose definition has a name and is required, which says nothing of elements. -/
def labelledTags : List FieldDefinition :=
  [.array "tags" { name := "tag", kind := .objectId, required := true }]

/-- Tags whose definition has no name. -/
def plainTags : List FieldDefinition :=
  [.array "tags" (.item .objectId)]

/-- The two definitions of tags are rendered to the same JSON. -/
theorem toRaw_determines_tags :
    ∃ tree other, ofFields labelledTags = .ok tree ∧ ofFields plainTags = .ok other ∧
      tree.toRaw = other.toRaw ∧ tree = other :=
  ⟨_, _, rfl, rfl, rfl, toRaw_determines (rfl : ofFields labelledTags = .ok _)
    (rfl : ofFields plainTags = .ok _) rfl⟩

end SchemaTree

end DocGate
