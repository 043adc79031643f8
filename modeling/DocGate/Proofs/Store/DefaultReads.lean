import DocGate.Proofs.Collection.Lookups
import DocGate.Proofs.Filter.Restriction
import DocGate.Proofs.Projection.Selection
import DocGate.Proofs.Schema.Bookkeeping
import DocGate.Proofs.Schema.Fields
import DocGate.Proofs.Store.Reads

/-!
# Reads without a selection

A request that selects no fields and is not restricted to columns includes every
declared field by its name.  The schema and the caster take a name as one key.  The
store takes it as a path, so a name with a dot leads into a nested document there.

* `Projection.apply_ofNames` says what the store returns for a list of names, and
  `Collection.find_of_isUnselective` what a read without a selection comes to.
* `Collection.ShowsDeclared` is what the caller expects: the declared fields that
  the document has, each with its cast.
* `Gateway.default_reads_iff` says when this is what every caller gets: no declared
  name has a dot.  `Gateway.default_read_loses_field` is a field that is lost.
-/

namespace DocGate

/-! ## Names as paths -/

namespace Projection

variable {names : List String} {document shown : Document} {key : String}

theorem marked_inclusions (includes : Bool) (names : List String) :
    marked includes (names.map fun name => (name, inclusion)) = if includes then names else [] := by
  have hmarker : marker? inclusion = some true := rfl
  cases includes <;> simp [marked, hmarker, List.filter_map, Function.comp_def]

/-- The projection that includes some names, the identifier among them, selects the
paths that the names are read as. -/
theorem apply_ofNames (hid : Bookkeeping.idField ∈ names) (document : Document) :
    ∃ shown, (ofNames names).apply document = .ok shown ∧
      Document.Selects (names.map Text.pathKeys) document shown := by
  have hmem : ∀ name, name ∈ withoutRepeats [] names ↔ name ∈ names := by
    simp [mem_withoutRepeats_iff]
  have hne : withoutRepeats [] names ≠ [] := List.ne_nil_of_mem ((hmem _).2 hid)
  have hentries : (ofNames names).entries =
      (withoutRepeats [] names).map fun name => (name, inclusion) := by
    rw [ofNames, ofEntries, if_neg (by simpa using hne)]
  have hincluded : marked true (ofNames names).entries = withoutRepeats [] names := by
    rw [hentries, marked_inclusions, if_pos rfl]
  have hexcluded : marked false (ofNames names).entries = [] := by
    rw [hentries, marked_inclusions, if_neg Bool.false_ne_true]
  have hmarker : ∀ entry ∈ (ofNames names).entries, marker? entry.2 = some true := by
    rw [hentries]
    exact List.forall_mem_map.2 fun name _ => rfl
  have happly := apply_eq_including hmarker (by simpa [hentries] using hne) document
  refine ⟨_, happly, (selects_of_apply happly (by rwa [hincluded])).congr fun listed => ?_⟩
  rw [includedPaths, hincluded, hexcluded, if_neg List.not_mem_nil, List.mem_append,
    List.mem_singleton]
  have hidPath : [Bookkeeping.idField] ∈ names.map Text.pathKeys :=
    pathKeys_idField ▸ List.mem_map_of_mem hid
  constructor
  · rintro (hlisted | rfl)
    · obtain ⟨name, hname, rfl⟩ := List.mem_map.1 hlisted
      exact List.mem_map_of_mem ((hmem name).1 hname)
    · exact hidPath
  · intro hlisted
    obtain ⟨name, hname, rfl⟩ := List.mem_map.1 hlisted
    exact .inl (List.mem_map_of_mem ((hmem name).2 hname))

end Projection

namespace Document

variable {names : List String} {document shown : Document} {key : String}

/-- A name without a dot selects the field of this name. -/
theorem Selects.get?_of_mem (h : Selects (names.map Text.pathKeys) document shown)
    (hmem : key ∈ names) (hdot : '.' ∉ key.toList) : shown.get? key = document.get? key := by
  have hpath : [key] ∈ names.map Text.pathKeys :=
    Text.pathKeys_eq_singleton hdot ▸ List.mem_map_of_mem hmem
  exact h.lookup?_of_covers [key] ⟨[key], hpath, List.prefix_refl [key]⟩

/-- A name with a dot selects nothing but a document, under the key that it begins
with. -/
theorem Selects.mem_keys_iff_of_not_mem (h : Selects (names.map Text.pathKeys) document shown)
    (hplain : ¬ (key ∈ names ∧ '.' ∉ key.toList)) :
    key ∈ shown.keys ↔
      (∃ name ∈ names, '.' ∈ name.toList ∧ Text.pathRoot name = key) ∧
        ∃ inner, document.get? key = some (.document inner) := by
  have hcovers : ¬ Covers (names.map Text.pathKeys) [key] := by
    rintro ⟨listed, hlisted, hwithin⟩
    obtain ⟨name, hname, rfl⟩ := List.mem_map.1 hlisted
    by_cases hdot : '.' ∈ name.toList
    · obtain ⟨next, rest, hkeys⟩ := Text.pathKeys_eq_cons_cons hdot
      simp [hkeys] at hwithin
    · rw [Text.pathKeys_eq_singleton hdot, List.cons_prefix_cons] at hwithin
      exact hplain (hwithin.1 ▸ ⟨hname, hdot⟩)
  have hprecedes : Precedes [key] (names.map Text.pathKeys) ↔
      ∃ name ∈ names, '.' ∈ name.toList ∧ Text.pathRoot name = key := by
    constructor
    · rintro ⟨listed, hlisted, hwithin, hne⟩
      obtain ⟨name, hname, rfl⟩ := List.mem_map.1 hlisted
      by_cases hdot : '.' ∈ name.toList
      · obtain ⟨next, rest, hkeys⟩ := Text.pathKeys_eq_cons_cons hdot
        rw [hkeys, List.cons_prefix_cons] at hwithin
        exact ⟨name, hname, hdot, hwithin.1.symm⟩
      · rw [Text.pathKeys_eq_singleton hdot] at hwithin hne
        exact absurd (hwithin.eq_of_length rfl) hne
    · rintro ⟨name, hname, hdot, rfl⟩
      obtain ⟨next, rest, hkeys⟩ := Text.pathKeys_eq_cons_cons hdot
      exact ⟨_, List.mem_map_of_mem hname, by simp [hkeys]⟩
  rw [← hprecedes, ← not_iff_not, ← Assoc.get?_eq_none_iff]
  constructor
  · rintro hnone ⟨hleads, inner, hinner⟩
    obtain ⟨entries, hentries⟩ := h.document_of_precedes [key] inner hcovers hleads hinner
    have hsome : shown.get? key = some (.document entries) := hentries
    rw [hnone] at hsome
    cases hsome
  · exact h.lookup?_of_not_precedes [key] hcovers

end Document

/-! ## The read -/

/-- A request that selects no fields and is not restricted to columns. -/
structure FindRequest.IsUnselective (request : FindRequest) : Prop where
  fields : Text.unlessBlank? request.fields = none
  raw : Text.unlessBlank? request.raw = none
  isAmbiguous : request.selection.isAmbiguous = false
  columns : (Columns.ofText request.columns).names = []

theorem FindRequest.isUnselective_empty : FindRequest.IsUnselective {} where
  fields := rfl
  raw := rfl
  isAmbiguous := rfl
  columns := rfl

namespace Collection

variable {collection : Collection} {definition : CollectionDefinition} {request : FindRequest}
  {store : MemoryStore} {condition : Filter}

/-- The query and the states of a request are accepted and come to a condition that
has an outcome on every stored document. -/
def Tests (collection : Collection) (store : MemoryStore) (request : FindRequest)
    (condition : Filter) : Prop :=
  ∃ query states, collection.optionalQuery request.query = .ok query ∧
    StateFilter.ofText request.states = .ok states ∧
    Filter.ofDocument (states.combine query) = .ok condition ∧
    ∀ document ∈ store.documents collection.name,
      ∃ outcome, condition.holds document = .ok outcome

/-- What the caller expects of a document: the declared fields that it has, each with
its cast. -/
structure ShowsDeclared (collection : Collection) (document shown : Document) : Prop where
  mem_keys_iff : ∀ key, key ∈ shown.keys ↔ key ∈ collection.fieldNames ∧ key ∈ document.keys
  get?_eq : ∀ key ∈ collection.fieldNames,
    shown.get? key = (collection.caster.cast document).get? key

/-- What the store leaves of it: the declared fields without a dot in their names that
the document has, each with its cast, and where another name begins with the key of a
document, a document under this key. -/
structure ShowsPaths (collection : Collection) (document shown : Document) : Prop where
  mem_keys_iff : ∀ key, key ∈ shown.keys ↔
    (key ∈ collection.fieldNames ∧ '.' ∉ key.toList) ∧ key ∈ document.keys ∨
      (∃ name ∈ collection.fieldNames, '.' ∈ name.toList ∧ Text.pathRoot name = key) ∧
        ∃ inner, document.get? key = some (.document inner)
  get?_eq : ∀ key ∈ collection.fieldNames, '.' ∉ key.toList →
    shown.get? key = (collection.caster.cast document).get? key

/-- Without a selection every declared field is included by its name. -/
theorem resolve_of_isUnselective (h : request.IsUnselective) :
    collection.resolve request.selection = .ok (Projection.ofNames collection.fieldNames) := by
  have hallows : ∀ name, (Columns.ofText request.columns).allows name = true := by
    intro name
    rw [Columns.allows, Columns.isUnrestricted, h.columns]
    rfl
  have hfilter : collection.fieldNames.filter (Columns.ofText request.columns).allows =
      collection.fieldNames := List.filter_eq_self.2 fun name _ => hallows name
  have hfields : Text.unlessBlank? request.selection.fields = none := h.fields
  have hraw : Text.unlessBlank? request.selection.raw = none := h.raw
  have hcolumns : request.selection.columns = request.columns := rfl
  simp only [resolve, Projection.resolve, Projection.requestedParts, h.isAmbiguous, hfields, hraw,
    hcolumns, Projection.defaultParts, hfilter, Projection.ofParts_field, Bool.false_eq_true,
    if_false]

/-- A request without a query or states tests for published documents. -/
theorem tests_published (collection : Collection) (store : MemoryStore) :
    collection.Tests store {} (StateFilter.condition ⟨[.published]⟩) := by
  refine ⟨none, ⟨[.published]⟩, rfl, rfl, StateFilter.ofDocument_toDocument _, ?_⟩
  exact fun document _ => ⟨_, StateFilter.holds_condition _ document⟩

/-- The declared fields of a compiled collection. -/
theorem fieldNames_of_compile (h : compile definition = .ok collection) :
    collection.fieldNames =
      (definition.omittedFields ++ definition.fields).map FieldDefinition.name := by
  obtain ⟨-, hschema, -⟩ := compile_eq_ok h
  obtain ⟨parts, hparts, -, htree⟩ :=
    SchemaTree.ofFields_eq_ok (CollectionDefinition.ofDefinition_eq_ok hschema).2
  rw [← hparts, fieldNames, htree, ← CompiledField.names_eq_map_field]
  exact List.map_map ..

theorem idField_mem_fieldNames (h : compile definition = .ok collection) :
    Bookkeeping.idField ∈ collection.fieldNames := by
  rw [fieldNames_of_compile h]
  exact definition.mem_names_of_isReserved (by decide)

/-- What the names of the fields select shows their paths. -/
theorem showsPaths_of_selects {document selected : Document}
    (h : Document.Selects (collection.fieldNames.map Text.pathKeys) document selected) :
    collection.ShowsPaths document (collection.cast selected) := by
  constructor
  case mem_keys_iff =>
    intro key
    rw [cast, Caster.keys_cast]
    by_cases hplain : key ∈ collection.fieldNames ∧ '.' ∉ key.toList
    · have hkeys : key ∈ selected.keys ↔ key ∈ document.keys := by
        rw [← not_iff_not, ← Assoc.get?_eq_none_iff, ← Assoc.get?_eq_none_iff,
          h.get?_of_mem hplain.1 hplain.2]
      rw [hkeys, and_iff_right hplain]
      refine ⟨.inl, fun hor => hor.elim id ?_⟩
      rintro ⟨-, inner, hinner⟩
      exact Assoc.mem_keys_of_mem (Assoc.mem_of_get?_eq_some hinner)
    · rw [h.mem_keys_iff_of_not_mem hplain]
      exact ⟨.inr, fun hor => hor.resolve_left fun hdeclared => hplain hdeclared.1⟩
  case get?_eq =>
    exact fun key hkey hdot => collection.caster.get?_cast_congr (h.get?_of_mem hkey hdot)

/-- A read without a selection gives one item for each document that its condition
holds of, the cast of what the names of the fields select. -/
theorem find_of_isUnselective (hid : Bookkeeping.idField ∈ collection.fieldNames)
    (hrequest : request.IsUnselective) (htests : collection.Tests store request condition) :
    ∃ shown : Document → Document,
      collection.find store request =
        .ok (((store.documents collection.name).filter condition.accepts).map
          fun document => .ok (shown document)) ∧
      ∀ document, collection.ShowsPaths document (shown document) := by
  obtain ⟨query, states, hquery, hstates, hcondition, houtcome⟩ := htests
  choose selected happly hselects using Projection.apply_ofNames hid
  refine ⟨fun document => collection.cast (selected document), ?_,
    fun document => showsPaths_of_selects (hselects document)⟩
  have hprepare := prepare_eq_ok_iff.2
    ⟨resolve_of_isUnselective hrequest, query, states, hquery, hstates, rfl⟩
  have htested : ∀ document ∈ store.documents collection.name,
      condition.holds document = .ok (condition.accepts document) := by
    intro document hdocument
    obtain ⟨outcome, hholds⟩ := houtcome document hdocument
    rw [hholds, Filter.accepts_eq hholds]
  have hitem : collection.item (Projection.ofNames collection.fieldNames) =
      fun document => .ok (collection.cast (selected document)) := by
    funext document
    rw [item, happly]
    rfl
  rw [find_of_prepare hprepare hcondition, Filter.select_eq_filter htested, hitem]

/-- If no declared name has a dot, the paths are the declared fields. -/
theorem ShowsPaths.showsDeclared {document shown : Document}
    (h : collection.ShowsPaths document shown)
    (hdots : ∀ name ∈ collection.fieldNames, '.' ∉ name.toList) :
    collection.ShowsDeclared document shown where
  mem_keys_iff key := by
    rw [h.mem_keys_iff]
    constructor
    · rintro (⟨⟨hkey, -⟩, hdocument⟩ | ⟨⟨name, hname, hdot, -⟩, -⟩)
      · exact ⟨hkey, hdocument⟩
      · exact absurd hdot (hdots name hname)
    · rintro ⟨hkey, hdocument⟩
      exact .inl ⟨⟨hkey, hdots key hkey⟩, hdocument⟩
  get?_eq key hkey := h.get?_eq key hkey (hdots key hkey)

/-- A name with a dot is not shown. -/
theorem ShowsPaths.not_mem_keys {document shown : Document} {name : String}
    (h : collection.ShowsPaths document shown) (hdot : '.' ∈ name.toList) :
    name ∉ shown.keys := by
  rw [h.mem_keys_iff]
  rintro (⟨⟨-, hplain⟩, -⟩ | ⟨⟨other, -, -, rfl⟩, -⟩)
  · exact hplain hdot
  · exact Text.dot_not_mem_pathRoot other hdot

end Collection

namespace Gateway

variable {registry : Registry} {collection : Collection} {definitions : List CollectionDefinition}
  {name : String}

/-- Reads of a collection without a selection give one item for each document that
their condition holds of, and it is related to the document by `shows`. -/
def DefaultReadsShow (registry : Registry) (collection : Collection)
    (shows : Document → Document → Prop) : Prop :=
  ∀ store request condition, request.IsUnselective → collection.Tests store request condition →
    ∃ shown : Document → Document,
      Gateway.find ⟨registry, store⟩ collection.name request =
        .ok (((store.documents collection.name).filter condition.accepts).map fun document =>
          .ok (shown document)) ∧
      ∀ document ∈ (store.documents collection.name).filter condition.accepts,
        shows document (shown document)

/-- A published document with one more field. -/
def publishedWith (field : String) : Document := [
  ("_id", .int32 1), ("__STATE__", .string "PUBLIC"), (field, .string "x")]

/-- A store with one document. -/
def storeOf (name : String) (document : Document) : MemoryStore :=
  ⟨[(name, [document])]⟩

theorem mem_keys_publishedWith (field : String) : field ∈ (publishedWith field).keys := by
  simp [publishedWith, Assoc.keys]

theorem filter_publishedWith (name field : String) :
    ((storeOf name (publishedWith field)).documents name).filter
        (Filter.accepts (StateFilter.condition ⟨[.published]⟩)) = [publishedWith field] := by
  have hdocuments : (storeOf name (publishedWith field)).documents name = [publishedWith field] := by
    simp [storeOf, MemoryStore.documents, Assoc.get?]
  have haccepts : Filter.accepts (StateFilter.condition ⟨[.published]⟩) (publishedWith field) =
      true := Filter.accepts_eq (StateFilter.holds_condition ⟨[.published]⟩ (publishedWith field))
  rw [hdocuments, List.filter_cons_of_pos haccepts, List.filter_nil]

/-- Reads without a selection show of every document what the names of the fields lead
to as paths.  These are the declared fields that the document has just if no declared
name has a dot. -/
theorem default_reads_iff (hregistry : Registry.ofDefinitions definitions = .ok registry)
    (hget : registry.get name = .ok collection) :
    DefaultReadsShow registry collection collection.ShowsPaths ∧
      (DefaultReadsShow registry collection collection.ShowsDeclared ↔
        ∀ field ∈ collection.fieldNames, '.' ∉ field.toList) := by
  obtain ⟨definition, -, hcompile⟩ := Registry.compile_of_get hregistry hget
  have hid := Collection.idField_mem_fieldNames hcompile
  obtain rfl := Registry.name_of_get hget
  have hpaths : DefaultReadsShow registry collection collection.ShowsPaths := by
    intro store request condition hrequest htests
    obtain ⟨shown, hfind, hshows⟩ := Collection.find_of_isUnselective hid hrequest htests
    exact ⟨shown, (find_of_get hget store request).trans hfind, fun document _ => hshows document⟩
  refine ⟨hpaths, ?_, ?_⟩
  · intro hreads field hfield hdot
    have htests := collection.tests_published (storeOf collection.name (publishedWith field))
    obtain ⟨declared, hdeclared, hshown⟩ := hreads _ {} _ FindRequest.isUnselective_empty htests
    obtain ⟨shown, hfind, hshows⟩ := hpaths _ {} _ FindRequest.isUnselective_empty htests
    rw [filter_publishedWith] at hdeclared hshown hfind hshows
    have heq : declared (publishedWith field) = shown (publishedWith field) := by
      simpa using hdeclared.symm.trans hfind
    have hkey : field ∈ (declared (publishedWith field)).keys :=
      ((hshown _ (List.mem_singleton_self _)).mem_keys_iff field).2
        ⟨hfield, mem_keys_publishedWith field⟩
    exact (hshows _ (List.mem_singleton_self _)).not_mem_keys hdot (heq ▸ hkey)
  · intro hdots store request condition hrequest htests
    obtain ⟨shown, hfind, hshows⟩ := hpaths store request condition hrequest htests
    exact ⟨shown, hfind, fun document hdocument => (hshows document hdocument).showsDeclared hdots⟩

/-- Notes with one declared field. -/
def notesWith (field : String) : CollectionDefinition where
  name := "notes"
  endpointBasePath := "/notes"
  fields := [{ name := field, kind := .string }]

/-- A note with a title is shown with its title. -/
theorem default_reads_iff_title :
    ∃ registry collection shown, Registry.ofDefinitions [notesWith "title"] = .ok registry ∧
      registry.get "notes" = .ok collection ∧
      Gateway.find ⟨registry, storeOf "notes" (publishedWith "title")⟩ "notes" {} =
        .ok [.ok shown] ∧ collection.ShowsDeclared (publishedWith "title") shown := by
  obtain ⟨registry, collection, hregistry, hget⟩ :=
    @Registry.exists_get_of_isSome [notesWith "title"] "notes" (by decide +kernel)
  have hdots : ∀ field ∈ collection.fieldNames, '.' ∉ field.toList := by
    obtain ⟨definition, hmem, hcompile⟩ := Registry.compile_of_get hregistry hget
    obtain rfl := List.mem_singleton.1 hmem
    rw [Collection.fieldNames_of_compile hcompile]
    decide +kernel
  obtain ⟨shown, hfind, hshown⟩ := (default_reads_iff hregistry hget).2.2 hdots
    (storeOf "notes" (publishedWith "title")) {} _ FindRequest.isUnselective_empty
    (collection.tests_published _)
  rw [Registry.name_of_get hget, filter_publishedWith] at hfind hshown
  exact ⟨registry, collection, shown _, hregistry, hget, hfind, hshown _ (List.mem_singleton_self _)⟩

/-- A note with a field `a.b` is shown without it. -/
theorem default_read_loses_field :
    ∃ registry collection shown, Registry.ofDefinitions [notesWith "a.b"] = .ok registry ∧
      registry.get "notes" = .ok collection ∧
      Gateway.find ⟨registry, storeOf "notes" (publishedWith "a.b")⟩ "notes" {} =
        .ok [.ok shown] ∧
      "a.b" ∈ collection.fieldNames ∧ "a.b" ∈ (publishedWith "a.b").keys ∧ "a.b" ∉ shown.keys := by
  obtain ⟨registry, collection, hregistry, hget⟩ :=
    @Registry.exists_get_of_isSome [notesWith "a.b"] "notes" (by decide +kernel)
  obtain ⟨definition, hmem, hcompile⟩ := Registry.compile_of_get hregistry hget
  obtain rfl := List.mem_singleton.1 hmem
  have hdeclared : "a.b" ∈ collection.fieldNames := by
    rw [Collection.fieldNames_of_compile hcompile]
    decide +kernel
  obtain ⟨shown, hfind, hshows⟩ := Collection.find_of_isUnselective
    (Collection.idField_mem_fieldNames hcompile) FindRequest.isUnselective_empty
    (collection.tests_published (storeOf "notes" (publishedWith "a.b")))
  rw [Registry.name_of_get hget, filter_publishedWith] at hfind
  exact ⟨registry, collection, shown (publishedWith "a.b"), hregistry, hget,
    (find_of_get hget _ _).trans hfind, hdeclared, mem_keys_publishedWith "a.b",
    (hshows _).not_mem_keys (by decide)⟩

end Gateway

end DocGate
