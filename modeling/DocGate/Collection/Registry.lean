import DocGate.Collection.Compiled

/-!
# The registry of collections

The collections that a service offers, in the order of their definitions.
Names and paths are unique, which `Registry.ofDefinitions` sees to, so a
collection can be looked up by either.
-/

namespace DocGate

/-- The collections of a service. -/
structure Registry where
  collections : List Collection

namespace Registry

/-- The collection with a name. -/
def find? (registry : Registry) (name : String) : Option Collection :=
  registry.collections.find? fun collection => collection.name = name

/-- The collection with a name, or the failure that there is none. -/
def get (registry : Registry) (name : String) : Except Failure Collection :=
  match registry.find? name with
  | some collection => .ok collection
  | none => .error (.collectionNotFound name)

/-- The collection that is served under a path. -/
def byEndpoint? (registry : Registry) (path : String) : Option Collection :=
  registry.collections.find? fun collection => collection.endpoint = path

/-- The names of the collections, sorted. -/
def names (registry : Registry) : List String :=
  (registry.collections.map Collection.name).mergeSort fun a b => decide (a ≤ b)

/-- The number of collections. -/
def size (registry : Registry) : Nat :=
  registry.collections.length

/-- Compiles a definition and adds it last, if its name and its path are new. -/
def add (registry : Registry) (definition : CollectionDefinition) :
    Except DefinitionFault Registry :=
  if (registry.find? definition.name).isSome then .error (.repeatedCollection definition.name)
  else
    match registry.byEndpoint? definition.endpointBasePath with
    | some other =>
      .error (.sharedEndpoint other.name definition.name definition.endpointBasePath)
    | none =>
      match Collection.compile definition with
      | .error fault => .error fault
      | .ok collection => .ok ⟨registry.collections ++ [collection]⟩

/-- Adds definitions from first to last. -/
def addAll (registry : Registry) : List CollectionDefinition → Except DefinitionFault Registry
  | [] => .ok registry
  | definition :: rest =>
    match registry.add definition with
    | .error fault => .error fault
    | .ok extended => extended.addAll rest

/-- The registry of some definitions. -/
def ofDefinitions (definitions : List CollectionDefinition) : Except DefinitionFault Registry :=
  addAll ⟨[]⟩ definitions

/-- A collection is found under its own name. -/
theorem name_of_get {registry : Registry} {name : String} {collection : Collection}
    (h : registry.get name = .ok collection) : collection.name = name := by
  rw [get] at h
  split at h
  · rename_i found hfind
    obtain rfl := Except.ok.inj h
    simpa using List.find?_some hfind
  · cases h

/-- Definitions that are accepted offer a collection under a name if one is
found. -/
theorem exists_get_of_isSome {definitions : List CollectionDefinition} {name : String}
    (h : ((ofDefinitions definitions).toOption.bind fun registry =>
      registry.find? name).isSome = true) :
    ∃ registry collection, ofDefinitions definitions = .ok registry ∧
      registry.get name = .ok collection := by
  cases hregistry : ofDefinitions definitions with
  | error fault =>
    rw [hregistry] at h
    cases h
  | ok registry =>
    rw [hregistry] at h
    obtain ⟨collection, hfind⟩ := Option.isSome_iff_exists.1 h
    have hfind : registry.find? name = some collection := hfind
    exact ⟨registry, collection, rfl, by rw [get, hfind]⟩

end Registry

end DocGate
