import DocGate.Filter.Eval
import DocGate.Projection.Apply

/-!
# The store

A store in memory: for each collection its documents in the order of their
insertion.  No two documents of a collection have the same identifier.

A batch is inserted as a whole or not at all.  A document without an identifier
gets one from a source that the caller passes, which is asked with the place of
the document in the batch.  `MemoryStore.write` is the same as a step from store
to store, which also says what a refused batch leaves behind.
-/

namespace DocGate

/-- The documents of the collections. -/
structure MemoryStore where
  collections : Assoc (List Document)

namespace MemoryStore

/-- A store without documents. -/
def empty : MemoryStore :=
  ⟨[]⟩

/-- The documents of a collection, in the order of their insertion. -/
def documents (store : MemoryStore) (collection : String) : List Document :=
  (store.collections.get? collection).getD []

/-- The number of documents of a collection. -/
def count (store : MemoryStore) (collection : String) : Nat :=
  (store.documents collection).length

/-! ## Insertion -/

/-- The document with an identifier: its own, or else the given one at its end. -/
def withId (fresh : ObjectId) (document : Document) : Document :=
  if document.contains Bookkeeping.idField then document
  else document.set Bookkeeping.idField (.objectId fresh)

/-- The batch with identifiers for all of its documents. -/
def withIds (fresh : Nat → ObjectId) (batch : List Document) : List Document :=
  batch.mapIdx fun place document => withId (fresh place) document

/-- Whether a document has the given identifier. -/
def hasId (id : Bson) (document : Document) : Bool :=
  (document.get? Bookkeeping.idField).any fun own => own.same id

/-- The documents with those of a batch after them, or the first identifier of
the batch that is taken.  The documents of the batch count as they come. -/
def appendDistinct (stored : List Document) : List Document → Except Bson (List Document)
  | [] => .ok stored
  | document :: rest =>
    let id := (document.get? Bookkeeping.idField).getD .null
    if stored.any (hasId id) then .error id
    else appendDistinct (stored ++ [document]) rest

/-- The store with a batch of documents at the end of a collection. -/
def insert (store : MemoryStore) (fresh : Nat → ObjectId) (collection : String)
    (batch : List Document) : Except StoreFault MemoryStore :=
  match appendDistinct (store.documents collection) (withIds fresh batch) with
  | .error id => .error (.duplicateKey id collection)
  | .ok documents => .ok ⟨store.collections.set collection documents⟩

/-- The store with several batches inserted one after the other.  The source of
identifiers is asked with the place of the batch and of the document in it. -/
def insertAll (store : MemoryStore) (fresh : Nat → Nat → ObjectId) :
    List (String × List Document) → Except StoreFault MemoryStore
  | [] => .ok store
  | (collection, batch) :: rest =>
    match store.insert (fresh 0) collection batch with
    | .error fault => .error fault
    | .ok extended => extended.insertAll (fun place => fresh (place + 1)) rest

/-- The store with a place for a collection, without documents if the collection
had none. -/
def reserve (store : MemoryStore) (collection : String) : MemoryStore :=
  ⟨store.collections.set collection (store.documents collection)⟩

/-- The store after an attempt to insert a batch, and how it went.  The
collection gets its place before the batch is looked at, and keeps it if the
batch is refused. -/
def write (store : MemoryStore) (fresh : Nat → ObjectId) (collection : String)
    (batch : List Document) : MemoryStore × Except StoreFault Unit :=
  let reserved := store.reserve collection
  match reserved.insert fresh collection batch with
  | .ok extended => (extended, .ok ())
  | .error fault => (reserved, .error fault)

/-! ## Reading -/

/-- What a read finds: for each selected document its projection, or the
failure of it. -/
abbrev Found := List (Except StoreFault Document)

/-- Reads the documents of a collection that a filter document selects. -/
def find (store : MemoryStore) (collection : String) (filter : Document)
    (projection : Projection) : Except StoreFault Found :=
  match Filter.ofDocument filter with
  | .error fault => .error fault
  | .ok condition =>
    match condition.select (store.documents collection) with
    | .error fault => .error fault
    | .ok selected => .ok (selected.map projection.apply)

end MemoryStore

end DocGate
