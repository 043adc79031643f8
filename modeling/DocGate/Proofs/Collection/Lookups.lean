import Mathlib.Data.List.Find
import Mathlib.Data.List.Nodup
import DocGate.Collection.Registry

/-!
# Lookups in a registry

When a list of definitions makes a registry, and what the registry answers.

* `Registry.Unambiguous` is what adding a definition keeps: no two collections
  have the same name or the same path.
* `Registry.addAll_eq_ok_iff` is the induction on the definitions, and
  `Registry.ofDefinitions_eq_ok_iff` what it comes to for a new registry.
* `Registry.sameAnswers_of_perm` says that the order in which a registry goes
  through its collections does not matter: a lookup finds at most one.

`Registry.ofDefinitions_answers` puts them together.
-/

namespace DocGate

/-! ## Unique keys -/

/-- Among items with different keys, the one with a key is found. -/
theorem find?_key_eq_some_iff {α : Type} {key : α → String} {items : List α}
    (hnodup : (items.map key).Nodup) {wanted : String} {item : α} :
    items.find? (fun item => key item = wanted) = some item ↔
      item ∈ items ∧ key item = wanted := by
  constructor
  · intro h
    exact ⟨List.mem_of_find?_eq_some h, by simpa using List.find?_some h⟩
  · rintro ⟨hmem, rfl⟩
    obtain ⟨found, hfound⟩ := Option.isSome_iff_exists.1
      (List.find?_isSome.2 ⟨item, hmem, decide_eq_true rfl⟩ :
        (items.find? fun other => key other = key item).isSome = true)
    have hkey : key found = key item := by simpa using List.find?_some hfound
    rw [hfound, List.inj_on_of_nodup_map hnodup (List.mem_of_find?_eq_some hfound) hmem hkey]

/-- The order of items with different keys does not matter to a search. -/
theorem find?_key_of_perm {α : Type} {key : α → String} {items items' : List α}
    (hnodup : (items.map key).Nodup) (h : items.Perm items') (wanted : String) :
    items.find? (fun item => key item = wanted) = items'.find? (fun item => key item = wanted) := by
  refine List.find?_eq_find?_of_perm h ?_
  rintro first ⟨hfirst, hkey⟩ second ⟨hsecond, hkey'⟩
  exact List.inj_on_of_nodup_map hnodup hfirst hsecond
    ((of_decide_eq_true hkey).trans (of_decide_eq_true hkey').symm)

namespace Registry

variable {registry extended : Registry} {definition : CollectionDefinition}
  {definitions : List CollectionDefinition}

/-! ## Adding definitions -/

/-- No two collections have the same name, and no two are served under the same
path. -/
structure Unambiguous (registry : Registry) : Prop where
  names : (registry.collections.map Collection.name).Nodup
  endpoints : (registry.collections.map Collection.endpoint).Nodup

theorem unambiguous_empty : Unambiguous ⟨[]⟩ :=
  ⟨List.nodup_nil, List.nodup_nil⟩

/-- One more collection leaves a registry unambiguous if its name and its path
are new. -/
theorem unambiguous_append_singleton_iff {collection : Collection} :
    Unambiguous ⟨registry.collections ++ [collection]⟩ ↔
      registry.Unambiguous ∧ collection.name ∉ registry.collections.map Collection.name ∧
        collection.endpoint ∉ registry.collections.map Collection.endpoint := by
  have hkey : ∀ key : Collection → String,
      ((registry.collections ++ [collection]).map key).Nodup ↔
        (registry.collections.map key).Nodup ∧ key collection ∉ registry.collections.map key := by
    intro key
    rw [List.map_append, List.map_singleton, ← List.concat_eq_append, List.nodup_concat, and_comm]
  constructor
  · rintro ⟨hnames, hendpoints⟩
    obtain ⟨hnames, hname⟩ := (hkey _).1 hnames
    obtain ⟨hendpoints, hendpoint⟩ := (hkey _).1 hendpoints
    exact ⟨⟨hnames, hendpoints⟩, hname, hendpoint⟩
  · rintro ⟨⟨hnames, hendpoints⟩, hname, hendpoint⟩
    exact ⟨(hkey _).2 ⟨hnames, hname⟩, (hkey _).2 ⟨hendpoints, hendpoint⟩⟩

/-- Collections before others in an unambiguous registry are unambiguous. -/
theorem Unambiguous.of_append {before after : List Collection}
    (h : Unambiguous ⟨before ++ after⟩) : Unambiguous ⟨before⟩ :=
  ⟨h.names.sublist ((List.sublist_append_left before after).map _),
    h.endpoints.sublist ((List.sublist_append_left before after).map _)⟩

/-- A definition is added if its name and its path are new and it compiles. -/
theorem add_eq_ok_iff :
    registry.add definition = .ok extended ↔
      definition.name ∉ registry.collections.map Collection.name ∧
        definition.endpointBasePath ∉ registry.collections.map Collection.endpoint ∧
        ∃ collection, Collection.compile definition = .ok collection ∧
          extended = ⟨registry.collections ++ [collection]⟩ := by
  have hname : (registry.find? definition.name).isSome = true ↔
      definition.name ∈ registry.collections.map Collection.name := by
    simp [find?]
  have hendpoint : registry.byEndpoint? definition.endpointBasePath = none ↔
      definition.endpointBasePath ∉ registry.collections.map Collection.endpoint := by
    simp [byEndpoint?]
  rw [add, ← hname, ← hendpoint]
  split
  · rename_i htaken
    simp [htaken]
  · rename_i hnew
    cases registry.byEndpoint? definition.endpointBasePath with
    | some other => simp
    | none => cases Collection.compile definition <;> simp [hnew, eq_comm]

/-- Definitions are added to an unambiguous registry if each of them compiles
and the registry stays unambiguous. -/
theorem addAll_eq_ok_iff (h : registry.Unambiguous) :
    registry.addAll definitions = .ok extended ↔
      ∃ added : List Collection, added.map Collection.definition = definitions ∧
        (∀ collection ∈ added, Collection.compile collection.definition = .ok collection) ∧
        extended = ⟨registry.collections ++ added⟩ ∧ extended.Unambiguous := by
  induction definitions generalizing registry with
  | nil =>
    constructor
    · intro hadded
      obtain rfl := Except.ok.inj hadded
      exact ⟨[], rfl, List.forall_mem_nil _, by rw [List.append_nil], h⟩
    · rintro ⟨added, hnone, -, rfl, -⟩
      obtain rfl := List.map_eq_nil_iff.1 hnone
      rw [addAll, List.append_nil]
  | cons definition rest ih =>
    constructor
    · intro hadded
      cases hadd : registry.add definition with
      | error fault => simp [addAll, hadd] at hadded
      | ok next =>
        simp only [addAll, hadd] at hadded
        obtain ⟨hname, hendpoint, collection, hcompile, rfl⟩ := add_eq_ok_iff.1 hadd
        obtain rfl := (Collection.compile_eq_ok hcompile).1
        have hnext := unambiguous_append_singleton_iff.2 ⟨h, hname, hendpoint⟩
        obtain ⟨added, rfl, hcompiled, rfl, hextended⟩ := (ih hnext).1 hadded
        refine ⟨collection :: added, rfl, List.forall_mem_cons.2 ⟨hcompile, hcompiled⟩, ?_,
          hextended⟩
        rw [List.append_assoc, List.singleton_append]
    · rintro ⟨added, hsplit, hcompiled, rfl, hextended⟩
      cases added with
      | nil => cases hsplit
      | cons collection added =>
        obtain ⟨rfl, rfl⟩ := List.cons.inj hsplit
        obtain ⟨hcompile, hcompiled⟩ := List.forall_mem_cons.1 hcompiled
        have hsplit : registry.collections ++ collection :: added =
            (registry.collections ++ [collection]) ++ added := by simp
        have hnext : Unambiguous ⟨registry.collections ++ [collection]⟩ := by
          rw [hsplit] at hextended
          exact hextended.of_append
        obtain ⟨-, hname, hendpoint⟩ := unambiguous_append_singleton_iff.1 hnext
        have hadd := add_eq_ok_iff.2 ⟨hname, hendpoint, collection, hcompile, rfl⟩
        simp only [addAll, hadd]
        exact (ih hnext).2 ⟨added, rfl, hcompiled, congrArg Registry.mk hsplit, hextended⟩

/-- Definitions make a registry of their collections, in order, if this registry
is unambiguous. -/
theorem ofDefinitions_eq_ok_iff :
    ofDefinitions definitions = .ok registry ↔
      registry.collections.map Collection.definition = definitions ∧
        (∀ collection ∈ registry.collections,
          Collection.compile collection.definition = .ok collection) ∧
        registry.Unambiguous := by
  rw [ofDefinitions, addAll_eq_ok_iff unambiguous_empty]
  constructor
  · rintro ⟨added, hdefinitions, hcompiled, rfl, hregistry⟩
    exact ⟨hdefinitions, hcompiled, hregistry⟩
  · rintro ⟨hdefinitions, hcompiled, hregistry⟩
    exact ⟨registry.collections, hdefinitions, hcompiled, rfl, hregistry⟩

theorem map_name_eq (registry : Registry) :
    (registry.collections.map Collection.definition).map CollectionDefinition.name =
      registry.collections.map Collection.name :=
  List.map_map ..

theorem map_endpoint_eq (registry : Registry) :
    (registry.collections.map Collection.definition).map CollectionDefinition.endpointBasePath =
      registry.collections.map Collection.endpoint :=
  List.map_map ..

/-- Definitions that compile have collections. -/
theorem exists_collections
    (h : ∀ definition ∈ definitions, ∃ collection, Collection.compile definition = .ok collection) :
    ∃ collections : List Collection, collections.map Collection.definition = definitions ∧
      ∀ collection ∈ collections, Collection.compile collection.definition = .ok collection := by
  induction definitions with
  | nil => exact ⟨[], rfl, List.forall_mem_nil _⟩
  | cons definition rest ih =>
    obtain ⟨⟨collection, hcompile⟩, hrest⟩ := List.forall_mem_cons.1 h
    obtain ⟨collections, rfl, hcompiled⟩ := ih hrest
    obtain rfl := (Collection.compile_eq_ok hcompile).1
    exact ⟨collection :: collections, rfl, List.forall_mem_cons.2 ⟨hcompile, hcompiled⟩⟩

/-- Definitions make a registry if their names differ, their paths differ and
each of them compiles. -/
theorem exists_ofDefinitions_iff :
    (∃ registry, ofDefinitions definitions = .ok registry) ↔
      (definitions.map CollectionDefinition.name).Nodup ∧
        (definitions.map CollectionDefinition.endpointBasePath).Nodup ∧
        ∀ definition ∈ definitions, ∃ collection, Collection.compile definition = .ok collection := by
  constructor
  · rintro ⟨registry, h⟩
    obtain ⟨rfl, hcompiled, hnames, hendpoints⟩ := ofDefinitions_eq_ok_iff.1 h
    rw [map_name_eq, map_endpoint_eq, List.forall_mem_map]
    exact ⟨hnames, hendpoints, fun collection hmem => ⟨collection, hcompiled collection hmem⟩⟩
  · rintro ⟨hnames, hendpoints, hcompile⟩
    obtain ⟨collections, rfl, hcompiled⟩ := exists_collections hcompile
    rw [map_name_eq ⟨collections⟩] at hnames
    rw [map_endpoint_eq ⟨collections⟩] at hendpoints
    exact ⟨⟨collections⟩, ofDefinitions_eq_ok_iff.2 ⟨rfl, hcompiled, hnames, hendpoints⟩⟩

/-! ## Lookups -/

theorem names_perm (registry : Registry) :
    registry.names.Perm (registry.collections.map Collection.name) :=
  List.mergeSort_perm _ _

theorem names_sorted (registry : Registry) : registry.names.Pairwise (· ≤ ·) := by
  have hsorted := @List.pairwise_mergeSort String (fun a b => decide (a ≤ b))
    (fun a b c hab hbc => decide_eq_true
      (String.le_trans (of_decide_eq_true hab) (of_decide_eq_true hbc)))
    (fun a b => by simpa using String.le_total a b) (registry.collections.map Collection.name)
  exact hsorted.imp of_decide_eq_true

theorem get_eq_ok_iff_find? {name : String} {collection : Collection} :
    registry.get name = .ok collection ↔ registry.find? name = some collection := by
  rw [get]
  cases registry.find? name <;> simp

theorem get_eq_error_iff_find? {name : String} :
    registry.get name = .error (.collectionNotFound name) ↔ registry.find? name = none := by
  rw [get]
  cases registry.find? name <;> simp

/-- Two registries that answer every lookup alike. -/
structure SameAnswers (registry registry' : Registry) : Prop where
  size_eq : registry.size = registry'.size
  names_eq : registry.names = registry'.names
  get_eq : ∀ name, registry.get name = registry'.get name
  byEndpoint?_eq : ∀ path, registry.byEndpoint? path = registry'.byEndpoint? path

/-- The order of the collections of an unambiguous registry does not matter. -/
theorem sameAnswers_of_perm {registry' : Registry} (h : registry.Unambiguous)
    (hperm : registry.collections.Perm registry'.collections) : registry.SameAnswers registry' where
  size_eq := hperm.length_eq
  names_eq :=
    List.Perm.eq_of_pairwise (fun _ _ _ _ => String.le_antisymm) registry.names_sorted
      registry'.names_sorted
      ((registry.names_perm.trans (hperm.map _)).trans registry'.names_perm.symm)
  get_eq name := by rw [get, get, find?, find?, find?_key_of_perm h.names hperm]
  byEndpoint?_eq path := find?_key_of_perm h.endpoints hperm path

/-- Every definition is found by its name and by its path, as the collection that
it compiles to.  Nothing else is found. -/
structure Serves (registry : Registry) (definitions : List CollectionDefinition) : Prop where
  size_eq : registry.size = definitions.length
  names_perm : registry.names.Perm (definitions.map CollectionDefinition.name)
  names_sorted : registry.names.Pairwise (· ≤ ·)
  get_of_mem : ∀ definition ∈ definitions, ∃ collection,
    Collection.compile definition = .ok collection ∧ registry.get definition.name = .ok collection
  get_of_not_mem : ∀ name, name ∉ definitions.map CollectionDefinition.name →
    registry.get name = .error (.collectionNotFound name)
  byEndpoint?_of_mem : ∀ definition ∈ definitions, ∃ collection,
    Collection.compile definition = .ok collection ∧
      registry.byEndpoint? definition.endpointBasePath = some collection ∧
      ∀ other ∈ registry.collections,
        other.endpoint = definition.endpointBasePath → other = collection
  byEndpoint?_of_not_mem : ∀ path, path ∉ definitions.map CollectionDefinition.endpointBasePath →
    registry.byEndpoint? path = none

/-- A registry serves the definitions that it is made of. -/
theorem serves_of_ofDefinitions (h : ofDefinitions definitions = .ok registry) :
    registry.Serves definitions := by
  obtain ⟨rfl, hcompiled, hregistry⟩ := ofDefinitions_eq_ok_iff.1 h
  constructor
  case size_eq => rw [size, List.length_map]
  case names_perm =>
    rw [map_name_eq]
    exact registry.names_perm
  case names_sorted => exact registry.names_sorted
  case get_of_mem =>
    refine List.forall_mem_map.2 fun collection hmem => ⟨collection, hcompiled collection hmem, ?_⟩
    exact get_eq_ok_iff_find?.2 ((find?_key_eq_some_iff hregistry.names).2 ⟨hmem, rfl⟩)
  case get_of_not_mem =>
    intro name hname
    rw [map_name_eq] at hname
    rw [get_eq_error_iff_find?]
    simpa [find?] using hname
  case byEndpoint?_of_mem =>
    refine List.forall_mem_map.2 fun collection hmem => ⟨collection, hcompiled collection hmem,
      (find?_key_eq_some_iff hregistry.endpoints).2 ⟨hmem, rfl⟩, fun other hother hpath => ?_⟩
    exact List.inj_on_of_nodup_map hregistry.endpoints hother hmem hpath
  case byEndpoint?_of_not_mem =>
    intro path hpath
    rw [map_endpoint_eq] at hpath
    simpa [byEndpoint?] using hpath

/-- A collection that is found is compiled from one of the definitions. -/
theorem compile_of_get {name : String} {collection : Collection}
    (h : ofDefinitions definitions = .ok registry) (hget : registry.get name = .ok collection) :
    ∃ definition ∈ definitions, Collection.compile definition = .ok collection := by
  obtain ⟨rfl, hcompiled, -⟩ := ofDefinitions_eq_ok_iff.1 h
  have hmem := List.mem_of_find?_eq_some (get_eq_ok_iff_find?.1 hget)
  exact ⟨collection.definition, List.mem_map_of_mem hmem, hcompiled collection hmem⟩

/-- The collections of a registry are those that its definitions compile to. -/
theorem collections_eq_filterMap (h : ofDefinitions definitions = .ok registry) :
    registry.collections =
      definitions.filterMap fun definition => (Collection.compile definition).toOption := by
  obtain ⟨rfl, hcompiled, -⟩ := ofDefinitions_eq_ok_iff.1 h
  have hself : registry.collections.filterMap
      (fun collection => (Collection.compile collection.definition).toOption) =
        registry.collections.filterMap some :=
    List.filterMap_congr fun collection hmem => by rw [hcompiled collection hmem]; rfl
  rw [List.filterMap_map]
  exact (List.filterMap_some.symm.trans hself.symm)

/-- Definitions make a registry if they do in another order. -/
theorem exists_ofDefinitions_iff_of_perm {definitions' : List CollectionDefinition}
    (h : definitions.Perm definitions') :
    (∃ registry, ofDefinitions definitions = .ok registry) ↔
      ∃ registry, ofDefinitions definitions' = .ok registry := by
  rw [exists_ofDefinitions_iff, exists_ofDefinitions_iff, (h.map _).nodup_iff,
    (h.map CollectionDefinition.endpointBasePath).nodup_iff]
  simp only [h.mem_iff]

/-- Registries of the same definitions in two orders answer alike. -/
theorem sameAnswers_of_ofDefinitions {registry' : Registry}
    {definitions' : List CollectionDefinition} (h : definitions.Perm definitions')
    (hmade : ofDefinitions definitions = .ok registry)
    (hmade' : ofDefinitions definitions' = .ok registry') : registry.SameAnswers registry' := by
  refine sameAnswers_of_perm (ofDefinitions_eq_ok_iff.1 hmade).2.2 ?_
  rw [collections_eq_filterMap hmade, collections_eq_filterMap hmade']
  exact h.filterMap _

/-- A list of definitions makes a registry if the names differ, the paths differ
and each definition compiles.  The registry serves just these definitions,
whatever order it keeps its collections in.  Definitions in another order make a
registry if these do, and it answers alike. -/
theorem ofDefinitions_answers (definitions : List CollectionDefinition) :
    ((∃ registry, ofDefinitions definitions = .ok registry) ↔
      (definitions.map CollectionDefinition.name).Nodup ∧
        (definitions.map CollectionDefinition.endpointBasePath).Nodup ∧
        ∀ definition ∈ definitions, ∃ collection, Collection.compile definition = .ok collection) ∧
    (∀ registry, ofDefinitions definitions = .ok registry → registry.Serves definitions ∧
      ∀ registry' : Registry, registry.collections.Perm registry'.collections →
        registry.SameAnswers registry') ∧
    ∀ definitions', definitions.Perm definitions' →
      ((∃ registry, ofDefinitions definitions = .ok registry) ↔
        ∃ registry, ofDefinitions definitions' = .ok registry) ∧
      ∀ registry registry', ofDefinitions definitions = .ok registry →
        ofDefinitions definitions' = .ok registry' → registry.SameAnswers registry' := by
  refine ⟨exists_ofDefinitions_iff, fun registry h => ⟨serves_of_ofDefinitions h, ?_⟩, ?_⟩
  · intro registry' hperm
    exact sameAnswers_of_perm (ofDefinitions_eq_ok_iff.1 h).2.2 hperm
  · intro definitions' hperm
    exact ⟨exists_ofDefinitions_iff_of_perm hperm,
      fun registry registry' => sameAnswers_of_ofDefinitions hperm⟩

/-- A shop and a library, in both orders. -/
def shopAndLibrary : List CollectionDefinition := [
  { name := "shops", endpointBasePath := "/shops", fields := [{ name := "position", kind := .geoPoint }] },
  { name := "books", endpointBasePath := "/books", fields := [{ name := "title", kind := .string }] }]

/-- The shop is found by its path in both orders. -/
theorem ofDefinitions_answers_reversed :
    ∃ registry registry' shops, ofDefinitions shopAndLibrary = .ok registry ∧
      ofDefinitions shopAndLibrary.reverse = .ok registry' ∧
      registry.get "shops" = .ok shops ∧ registry'.byEndpoint? "/shops" = some shops ∧
      registry.names = registry'.names ∧
      registry'.get "authors" = .error (.collectionNotFound "authors") := by
  obtain ⟨registry, shops, hmade, hshops⟩ :=
    @exists_get_of_isSome shopAndLibrary "shops" (by decide +kernel)
  obtain ⟨hsucceeds, hsame⟩ := (ofDefinitions_answers shopAndLibrary).2.2
    shopAndLibrary.reverse (List.reverse_perm _).symm
  obtain ⟨registry', hmade'⟩ := hsucceeds.1 ⟨registry, hmade⟩
  have hserves := ((ofDefinitions_answers shopAndLibrary).2.1 registry hmade).1
  have hanswers := hsame registry registry' hmade hmade'
  refine ⟨registry, registry', shops, hmade, hmade', hshops, ?_, hanswers.names_eq, ?_⟩
  · obtain ⟨shop, hcompile, hget⟩ := hserves.get_of_mem _ List.mem_cons_self
    obtain ⟨shop', hcompile', hfound, -⟩ := hserves.byEndpoint?_of_mem _ List.mem_cons_self
    obtain rfl := Except.ok.inj (hcompile.symm.trans hcompile')
    obtain rfl := Except.ok.inj (hshops.symm.trans hget)
    exact (hanswers.byEndpoint?_eq _).symm.trans hfound
  · rw [← hanswers.get_eq]
    exact hserves.get_of_not_mem _ (by decide)

end Registry

end DocGate
