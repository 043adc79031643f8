import DocGate.Collection.Registry
import DocGate.Filter.States
import DocGate.Store.Memory

/-!
# The gateway

The gateway serves the collections of a registry from a store.  A read resolves
the caller's selection, checks its query and its states, in this order, and
only then asks the store; each document that the store finds is cast on its way
to the caller.
-/

namespace DocGate

/-- What a caller asks for in a read. -/
structure FindRequest where
  query : Option String := none
  fields : Option String := none
  raw : Option String := none
  columns : Option String := none
  states : Option String := none

/-- The part of a request that concerns the selection of fields. -/
def FindRequest.selection (request : FindRequest) : ProjectionRequest :=
  { fields := request.fields, columns := request.columns, raw := request.raw }

namespace Collection

/-- The filter document of an optional query; a blank one counts as none. -/
def optionalQuery (collection : Collection) (text : Option String) :
    Except RequestFault (Option Document) :=
  match Text.unlessBlank? text with
  | none => .ok none
  | some query =>
    match collection.query query with
    | .error fault => .error fault
    | .ok document => .ok (some document)

/-- What a request comes to for the store: a filter document and a projection. -/
def prepare (collection : Collection) (request : FindRequest) :
    Except RequestFault (Document × Projection) :=
  match collection.resolve request.selection with
  | .error fault => .error fault
  | .ok projection =>
    match collection.optionalQuery request.query with
    | .error fault => .error fault
    | .ok query =>
      match StateFilter.ofText request.states with
      | .error fault => .error fault
      | .ok states => .ok (states.combine query, projection)

/-- Reads the documents of a collection from a store. -/
def find (collection : Collection) (store : MemoryStore) (request : FindRequest) :
    Except Failure MemoryStore.Found :=
  match collection.prepare request with
  | .error fault => .error (.request fault)
  | .ok (filter, projection) =>
    match store.find collection.name filter projection with
    | .error fault => .error (.store fault)
    | .ok found => .ok (found.map fun item => item.map collection.cast)

end Collection

/-- A registry of collections and the store of their documents. -/
structure Gateway where
  registry : Registry
  store : MemoryStore

namespace Gateway

/-- Reads the documents of a registered collection. -/
def find (gateway : Gateway) (name : String) (request : FindRequest) :
    Except Failure MemoryStore.Found :=
  match gateway.registry.get name with
  | .error failure => .error failure
  | .ok collection => collection.find gateway.store request

/-- Inserts documents into a registered collection. -/
def insert (gateway : Gateway) (fresh : Nat → ObjectId) (name : String)
    (batch : List Document) : Except Failure Gateway :=
  match gateway.registry.get name with
  | .error failure => .error failure
  | .ok collection =>
    match gateway.store.insert fresh collection.name batch with
    | .error fault => .error (.store fault)
    | .ok store => .ok { gateway with store }

/-- The gateway with a place for a collection in its store, if the collection is
registered. -/
def reserve (gateway : Gateway) (name : String) : Gateway :=
  match gateway.registry.get name with
  | .error _ => gateway
  | .ok collection => { gateway with store := gateway.store.reserve collection.name }

/-- The gateway after an attempt to insert documents into a registered
collection, and how it went. -/
def write (gateway : Gateway) (fresh : Nat → ObjectId) (name : String)
    (batch : List Document) : Gateway × Except Failure Unit :=
  let reserved := gateway.reserve name
  match reserved.insert fresh name batch with
  | .ok extended => (extended, .ok ())
  | .error failure => (reserved, .error failure)

end Gateway

end DocGate
