import DocGate.Cast.Caster
import DocGate.Filter.Query
import DocGate.Projection.Resolve
import DocGate.Schema.Compile

/-!
# Compiled collections

A collection definition is compiled once: to the schema of its documents and
the caster for them.  What a request on the collection needs, its projection
and its query, is then resolved against the names of its fields.
-/

namespace DocGate

/-- A collection definition with what is compiled from it. -/
structure Collection where
  definition : CollectionDefinition
  schema : SchemaTree
  caster : Caster

namespace Collection

/-- Compiles a definition. -/
def compile (definition : CollectionDefinition) : Except DefinitionFault Collection :=
  match SchemaTree.ofDefinition definition with
  | .error fault => .error fault
  | .ok schema =>
    match Caster.ofSchema schema with
    | .error fault => .error fault
    | .ok caster => .ok { definition, schema, caster }

/-- The name of the collection. -/
def name (collection : Collection) : String :=
  collection.definition.name

/-- The path that the collection is served under. -/
def endpoint (collection : Collection) : String :=
  collection.definition.endpointBasePath

/-- The names of the fields, bookkeeping fields included. -/
def fieldNames (collection : Collection) : List String :=
  collection.schema.fieldNames

/-- The projection for a request on the collection. -/
def resolve (collection : Collection) (request : ProjectionRequest) :
    Except RequestFault Projection :=
  Projection.resolve collection.fieldNames request

/-- The filter document of a query on the collection. -/
def query (collection : Collection) (text : String) : Except RequestFault Document :=
  Query.read collection.fieldNames text

/-- A stored document in the form that the caller sees. -/
def cast (collection : Collection) (document : Document) : Document :=
  collection.caster.cast document

/-- A compiled collection has its definition, and what is compiled from it. -/
theorem compile_eq_ok {definition : CollectionDefinition} {collection : Collection}
    (h : compile definition = .ok collection) :
    collection.definition = definition ∧
      SchemaTree.ofDefinition definition = .ok collection.schema ∧
      Caster.ofSchema collection.schema = .ok collection.caster := by
  rw [compile] at h
  cases hschema : SchemaTree.ofDefinition definition with
  | error fault => simp [hschema] at h
  | ok schema =>
    cases hcaster : Caster.ofSchema schema with
    | error fault => simp [hschema, hcaster] at h
    | ok caster =>
      simp only [hschema, hcaster, Except.ok.injEq] at h
      subst h
      exact ⟨rfl, rfl, hcaster⟩

end Collection

end DocGate
