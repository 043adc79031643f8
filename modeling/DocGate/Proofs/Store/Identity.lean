import DocGate.Proofs.Bson.Equality
import DocGate.Store.Gateway

/-!
# Identifiers in a store

What writing does to a store, over any sequence of writes.

* A batch.  `NewIds` says that no identifier of a batch is taken, neither by a
  stored document nor by one before it in the batch, and
  `appendDistinct_eq_ok_iff` that the store accepts just these batches.
* A write.  `write_cases` is the inversion of a write: the batch is at the end
  of its collection, or only the place of the collection is new, which no read
  shows (`SameReads`).
* The invariant.  `Identified` is what a write keeps (`Identified.append`), and
  every reachable store has it (`Gateway.identified_of_reachable`).

`Gateway.writes_atomic` puts them together: the invariant of what is reachable,
and what each further write does.
-/

namespace DocGate

/-- Whether two documents have identifiers that are the same. -/
def Document.sameId (document other : Document) : Bool :=
  match document.get? Bookkeeping.idField, other.get? Bookkeeping.idField with
  | some own, some id => own.same id
  | _, _ => false

namespace MemoryStore

variable {stored batch documents : List Document} {document : Document}

/-! ## Batches -/

/-- Every document has an identifier, and no two have the same. -/
structure Identified (documents : List Document) : Prop where
  contains_id : ∀ document ∈ documents, document.contains Bookkeeping.idField = true
  distinct : documents.Pairwise fun earlier later => earlier.sameId later = false

/-- No document of a batch has the identifier of a stored document or of a
document before it in the batch. -/
def NewIds (stored batch : List Document) : Prop :=
  ∀ before document after, batch = before ++ document :: after →
    ∀ other ∈ stored ++ before, other.sameId document = false

theorem newIds_nil (stored : List Document) : NewIds stored [] := by
  intro before document after h
  simp at h

/-- The documents of a batch count as stored for those after them. -/
theorem newIds_cons_iff :
    NewIds stored (document :: batch) ↔
      (∀ other ∈ stored, other.sameId document = false) ∧ NewIds (stored ++ [document]) batch := by
  constructor
  · intro h
    refine ⟨fun other hother => h [] document batch rfl other (by simpa using hother), ?_⟩
    intro before later after hbatch other hother
    refine h (document :: before) later after (by rw [hbatch]; rfl) other ?_
    simpa using hother
  · rintro ⟨hfirst, hrest⟩ before later after hbatch other hother
    cases before with
    | nil =>
      obtain ⟨rfl, -⟩ := List.cons.inj hbatch
      exact hfirst other (by simpa using hother)
    | cons first before =>
      obtain ⟨rfl, hlater⟩ := List.cons.inj hbatch
      exact hrest before later after hlater other (by simpa using hother)

/-- A stored document takes the identifier of another if both are the same. -/
theorem any_hasId_eq_false_iff {id : Bson} (hid : document.get? Bookkeeping.idField = some id) :
    stored.any (hasId id) = false ↔ ∀ other ∈ stored, other.sameId document = false := by
  rw [List.any_eq_false]
  refine forall₂_congr fun other _ => ?_
  rw [Bool.not_eq_true, hasId, Document.sameId, hid]
  cases other.get? Bookkeeping.idField <;> rfl

/-- A batch is accepted if its identifiers are new, and is then appended as it
is. -/
theorem appendDistinct_eq_ok_iff
    (hids : ∀ document ∈ batch, document.contains Bookkeeping.idField = true) :
    appendDistinct stored batch = .ok documents ↔
      NewIds stored batch ∧ documents = stored ++ batch := by
  induction batch generalizing stored with
  | nil => simp [appendDistinct, newIds_nil, eq_comm]
  | cons document rest ih =>
    rw [List.forall_mem_cons] at hids
    obtain ⟨id, hid⟩ := Option.isSome_iff_exists.1 hids.1
    rw [appendDistinct, hid, Option.getD_some, newIds_cons_iff, ← any_hasId_eq_false_iff hid]
    cases htaken : stored.any (hasId id) with
    | true => simp
    | false => simp [ih hids.2, List.append_assoc]

/-- A batch with new identifiers keeps the documents identified. -/
theorem Identified.append (h : Identified stored)
    (hids : ∀ document ∈ batch, document.contains Bookkeeping.idField = true)
    (hnew : NewIds stored batch) : Identified (stored ++ batch) := by
  induction batch generalizing stored with
  | nil => simpa using h
  | cons document rest ih =>
    rw [List.forall_mem_cons] at hids
    obtain ⟨hfirst, hrest⟩ := newIds_cons_iff.1 hnew
    have hstep : Identified (stored ++ [document]) := by
      constructor
      · simpa [or_imp, forall_and, hids.1] using h.contains_id
      · exact List.pairwise_append.2 ⟨h.distinct, List.pairwise_singleton .., by simpa using hfirst⟩
    simpa using ih hstep hids.2 hrest

/-! ## Identifiers of a batch -/

theorem contains_withId (fresh : ObjectId) (document : Document) :
    (withId fresh document).contains Bookkeeping.idField = true := by
  rw [withId]
  split
  · assumption
  · rw [Assoc.contains, Assoc.get?_set_self]
    rfl

theorem contains_of_mem_withIds {fresh : Nat → ObjectId} (h : document ∈ withIds fresh batch) :
    document.contains Bookkeeping.idField = true := by
  obtain ⟨place, hplace, rfl⟩ := List.mem_mapIdx.1 h
  exact contains_withId _ _

/-! ## Writes -/

variable {store after : MemoryStore} {fresh : Nat → ObjectId} {collection other : String}

/-- The first store with a batch at the end of a collection. -/
structure Appended (before after : MemoryStore) (collection : String) (batch : List Document) :
    Prop where
  documents_self : after.documents collection = before.documents collection ++ batch
  documents_of_ne : ∀ other, other ≠ collection → after.documents other = before.documents other

/-- No read tells two stores apart. -/
structure SameReads (before after : MemoryStore) : Prop where
  count_eq : ∀ collection, after.count collection = before.count collection
  find_eq : ∀ collection filter projection,
    after.find collection filter projection = before.find collection filter projection

/-- An attempt to append a batch.  It succeeds under a condition, and then the
batch is at the end of its collection; if it fails, no read shows it. -/
structure Atomic (before after : MemoryStore) (collection : String) (batch : List Document)
    (condition succeeded : Prop) : Prop where
  succeeds_iff : succeeded ↔ condition
  appended : succeeded → Appended before after collection batch
  unchanged : ¬succeeded → SameReads before after

theorem sameReads_of_documents {before : MemoryStore}
    (h : ∀ collection, after.documents collection = before.documents collection) :
    SameReads before after where
  count_eq collection := by rw [count, count, h]
  find_eq collection filter projection := by rw [find, find, h]

theorem documents_set_self (collections : Assoc (List Document)) (collection : String)
    (documents : List Document) :
    documents = MemoryStore.documents ⟨collections.set collection documents⟩ collection := by
  rw [MemoryStore.documents, Assoc.get?_set_self]
  rfl

theorem documents_set_of_ne (collections : Assoc (List Document)) (documents : List Document)
    (h : other ≠ collection) :
    MemoryStore.documents ⟨collections.set collection documents⟩ other =
      MemoryStore.documents ⟨collections⟩ other := by
  rw [MemoryStore.documents, Assoc.get?_set_of_ne _ _ h.symm, MemoryStore.documents]

/-- A place for a collection adds no document. -/
theorem documents_reserve (store : MemoryStore) (collection other : String) :
    (store.reserve collection).documents other = store.documents other := by
  by_cases h : other = collection
  · subst h
    exact (documents_set_self _ _ _).symm
  · exact documents_set_of_ne _ _ h

/-- An insertion succeeds if the identifiers are new, and appends the batch. -/
theorem insert_eq_ok_iff :
    store.insert fresh collection batch = .ok after ↔
      NewIds (store.documents collection) (withIds fresh batch) ∧
        after = ⟨store.collections.set collection
          (store.documents collection ++ withIds fresh batch)⟩ := by
  have hids : ∀ document ∈ withIds fresh batch, document.contains Bookkeeping.idField = true :=
    fun _ => contains_of_mem_withIds
  rw [insert]
  cases happend : appendDistinct (store.documents collection) (withIds fresh batch) with
  | error id =>
    have hnot : ¬NewIds (store.documents collection) (withIds fresh batch) := fun hnew => by
      rw [(appendDistinct_eq_ok_iff hids).2 ⟨hnew, rfl⟩] at happend
      cases happend
    simp [hnot]
  | ok documents =>
    obtain ⟨hnew, rfl⟩ := (appendDistinct_eq_ok_iff hids).1 happend
    simp [hnew, eq_comm]

theorem appended_of_insert (h : store.insert fresh collection batch = .ok after) :
    Appended store after collection (withIds fresh batch) := by
  obtain ⟨-, rfl⟩ := insert_eq_ok_iff.1 h
  exact ⟨(documents_set_self _ _ _).symm, fun other hne => documents_set_of_ne _ _ hne⟩

/-- A write appends the batch if its identifiers are new, and changes no
documents otherwise. -/
theorem write_cases (store : MemoryStore) (fresh : Nat → ObjectId) (collection : String)
    (batch : List Document) :
    (NewIds (store.documents collection) (withIds fresh batch) ∧
        (store.write fresh collection batch).2 = .ok () ∧
        Appended store (store.write fresh collection batch).1 collection (withIds fresh batch)) ∨
      (¬NewIds (store.documents collection) (withIds fresh batch) ∧
        (∃ fault, (store.write fresh collection batch).2 = .error fault) ∧
        ∀ other, (store.write fresh collection batch).1.documents other = store.documents other) := by
  have hreserved : NewIds ((store.reserve collection).documents collection) (withIds fresh batch) ↔
      NewIds (store.documents collection) (withIds fresh batch) := by
    rw [documents_reserve]
  rw [← hreserved, write]
  cases hinsert : (store.reserve collection).insert fresh collection batch with
  | ok extended =>
    obtain ⟨hself, hother⟩ := appended_of_insert hinsert
    refine .inl ⟨(insert_eq_ok_iff.1 hinsert).1, rfl, ?_, fun other hne => ?_⟩
    · rw [hself, documents_reserve]
    · rw [hother other hne, documents_reserve]
  | error fault =>
    refine .inr ⟨fun hnew => ?_, ⟨fault, rfl⟩, documents_reserve store collection⟩
    rw [insert_eq_ok_iff.2 ⟨hnew, rfl⟩] at hinsert
    cases hinsert

/-- A write is atomic, and succeeds if the identifiers are new. -/
theorem write_atomic (store : MemoryStore) (fresh : Nat → ObjectId) (collection : String)
    (batch : List Document) :
    Atomic store (store.write fresh collection batch).1 collection (withIds fresh batch)
      (NewIds (store.documents collection) (withIds fresh batch))
      ((store.write fresh collection batch).2 = .ok ()) := by
  rcases store.write_cases fresh collection batch with ⟨hnew, hok, happended⟩ | ⟨hnot, hfault, hsame⟩
  · exact ⟨by simp [hok, hnew], fun _ => happended, fun hfails => absurd hok hfails⟩
  · obtain ⟨fault, hfault⟩ := hfault
    have hfails : (store.write fresh collection batch).2 ≠ .ok () := by simp [hfault]
    exact ⟨by simp [hfails, hnot], fun hok => absurd hok hfails,
      fun _ => sameReads_of_documents hsame⟩

/-- Every collection of a store has identified documents. -/
def IsIdentified (store : MemoryStore) : Prop :=
  ∀ collection, Identified (store.documents collection)

theorem isIdentified_empty : empty.IsIdentified := fun _ => ⟨by simp [documents, empty, Assoc.get?],
  by simp [documents, empty, Assoc.get?]⟩

theorem IsIdentified.of_appended (h : store.IsIdentified)
    (hnew : NewIds (store.documents collection) (withIds fresh batch))
    (happended : Appended store after collection (withIds fresh batch)) : after.IsIdentified := by
  intro other
  by_cases hother : other = collection
  · subst hother
    rw [happended.documents_self]
    exact (h other).append (fun _ => contains_of_mem_withIds) hnew
  · rw [happended.documents_of_ne other hother]
    exact h other

/-- A write keeps the documents of a store identified, whether it succeeds or
not. -/
theorem IsIdentified.write (h : store.IsIdentified) (fresh : Nat → ObjectId) (collection : String)
    (batch : List Document) : (store.write fresh collection batch).1.IsIdentified := by
  rcases store.write_cases fresh collection batch with ⟨hnew, -, happended⟩ | ⟨-, -, hsame⟩
  · exact h.of_appended hnew happended
  · intro other
    rw [hsame other]
    exact h other

theorem IsIdentified.insertAll (h : store.IsIdentified) {source : Nat → Nat → ObjectId}
    {seed : List (String × List Document)} (hseed : store.insertAll source seed = .ok after) :
    after.IsIdentified := by
  induction seed generalizing store source with
  | nil =>
    obtain rfl := Except.ok.inj hseed
    exact h
  | cons first rest ih =>
    obtain ⟨collection, batch⟩ := first
    rw [MemoryStore.insertAll] at hseed
    cases hinsert : store.insert (source 0) collection batch with
    | error fault => simp [hinsert] at hseed
    | ok extended =>
      simp only [hinsert] at hseed
      exact ih (h.of_appended (insert_eq_ok_iff.1 hinsert).1 (appended_of_insert hinsert)) hseed

end MemoryStore

namespace Gateway

/-- The gateways that serve a registry: over a store that was seeded, and after
writes to it through the gateway or past it, whether they succeed or not. -/
inductive Reachable (registry : Registry) : Gateway → Prop
  | seeded {source : Nat → Nat → ObjectId} {seed : List (String × List Document)}
      {store : MemoryStore} (h : MemoryStore.empty.insertAll source seed = .ok store) :
      Reachable registry ⟨registry, store⟩
  | written {gateway : Gateway} (h : Reachable registry gateway) (fresh : Nat → ObjectId)
      (name : String) (batch : List Document) :
      Reachable registry (gateway.write fresh name batch).1
  | stored {gateway : Gateway} (h : Reachable registry gateway) (fresh : Nat → ObjectId)
      (collection : String) (batch : List Document) :
      Reachable registry
        { gateway with store := (gateway.store.write fresh collection batch).1 }

variable {registry : Registry} {gateway : Gateway}

/-- A write to a registered collection is a write to the store. -/
theorem write_of_get {name : String} {collection : Collection}
    (hget : gateway.registry.get name = .ok collection) (fresh : Nat → ObjectId)
    (batch : List Document) :
    gateway.write fresh name batch =
      ({ gateway with store := (gateway.store.write fresh name batch).1 },
        (gateway.store.write fresh name batch).2.mapError .store) := by
  obtain rfl := Registry.name_of_get hget
  rw [write, reserve, hget, MemoryStore.write]
  simp only [insert, hget]
  cases (gateway.store.reserve collection.name).insert fresh collection.name batch <;> rfl

/-- A write to a collection that is not registered does nothing. -/
theorem write_of_not_registered {name : String} {failure : Failure}
    (hget : gateway.registry.get name = .error failure) (fresh : Nat → ObjectId)
    (batch : List Document) : gateway.write fresh name batch = (gateway, .error failure) := by
  rw [write, reserve, hget]
  simp only [insert, hget]

theorem registry_write (gateway : Gateway) (fresh : Nat → ObjectId) (name : String)
    (batch : List Document) : (gateway.write fresh name batch).1.registry = gateway.registry := by
  cases hget : gateway.registry.get name with
  | error failure => rw [write_of_not_registered hget]
  | ok collection => rw [write_of_get hget]

/-- A write through the gateway is atomic, and succeeds if the collection is
registered and the identifiers are new. -/
theorem write_atomic (gateway : Gateway) (fresh : Nat → ObjectId) (name : String)
    (batch : List Document) :
    MemoryStore.Atomic gateway.store (gateway.write fresh name batch).1.store name
      (MemoryStore.withIds fresh batch)
      ((∃ collection, gateway.registry.get name = .ok collection) ∧
        MemoryStore.NewIds (gateway.store.documents name) (MemoryStore.withIds fresh batch))
      ((gateway.write fresh name batch).2 = .ok ()) := by
  cases hget : gateway.registry.get name with
  | error failure =>
    rw [write_of_not_registered hget]
    exact ⟨by simp, by simp, fun _ => MemoryStore.sameReads_of_documents fun _ => rfl⟩
  | ok collection =>
    have hmapped : ∀ result : Except StoreFault Unit,
        result.mapError Failure.store = .ok () ↔ result = .ok () := by
      rintro (fault | ⟨⟩) <;> simp [Except.mapError]
    obtain ⟨hsucceeds, happended, hunchanged⟩ := gateway.store.write_atomic fresh name batch
    rw [write_of_get hget]
    refine ⟨?_, ?_, ?_⟩
    · simpa [hmapped] using hsucceeds
    · simpa [hmapped] using happended
    · simpa [hmapped] using hunchanged

/-- What is reachable serves the same registry from identified documents. -/
theorem identified_of_reachable (h : Reachable registry gateway) :
    gateway.registry = registry ∧ gateway.store.IsIdentified := by
  induction h with
  | seeded hseed => exact ⟨rfl, MemoryStore.isIdentified_empty.insertAll hseed⟩
  | @written gateway _ fresh name batch ih =>
    refine ⟨(registry_write gateway fresh name batch).trans ih.1, ?_⟩
    cases hget : gateway.registry.get name with
    | error failure =>
      rw [write_of_not_registered hget]
      exact ih.2
    | ok collection =>
      rw [write_of_get hget]
      exact ih.2.write fresh name batch
  | @stored gateway _ fresh collection batch ih => exact ⟨ih.1, ih.2.write fresh collection batch⟩

end Gateway

end DocGate
