import DocGate.Proofs.Store.Identity

/-!
# Batches in parts

A store looks at the documents of a batch one by one and takes those before a
document for stored, so it makes no difference where one batch ends and the next
begins.

* Two parts.  A batch is refused or appended as its two parts are, one after the
  other (`MemoryStore.insert_append`), and the same is true of writes
  (`MemoryStore.write_append_of_error`, `MemoryStore.write_append_of_ok`).
* Many batches.  `MemoryStore.Regrouped` relates two lists of batches that differ
  only in how neighbours of one collection are grouped.  Inserting one or the other
  gives the same store or the same fault (`MemoryStore.insertAll_of_regrouped`).
  `MemoryStore.Written` is a sequence of writes that all succeed.

In both cases a document without an identifier has to get the same one.  The
identifiers come in the order of the documents: `MemoryStore.idsFrom` goes on after
some documents, and `MemoryStore.numbered` hands them to the batches of a list.
-/

namespace DocGate

namespace MemoryStore

variable {store after : MemoryStore} {fresh : Nat → ObjectId} {collection : String}
  {batch : List Document} {batches : List (String × List Document)}

/-! ## Two parts -/

/-- The identifiers for the documents after the first `count`. -/
def idsFrom (count : Nat) (fresh : Nat → ObjectId) : Nat → ObjectId :=
  fun place => fresh (place + count)

theorem idsFrom_idsFrom (first second : Nat) (fresh : Nat → ObjectId) :
    idsFrom second (idsFrom first fresh) = idsFrom (first + second) fresh := by
  funext place
  rw [idsFrom, idsFrom, idsFrom, Nat.add_assoc, Nat.add_comm second]

theorem withIds_append (fresh : Nat → ObjectId) (first second : List Document) :
    withIds fresh (first ++ second) =
      withIds fresh first ++ withIds (idsFrom first.length fresh) second :=
  List.mapIdx_append

/-- The first part of a batch counts as stored for the second. -/
theorem appendDistinct_append (stored first second : List Document) :
    appendDistinct stored (first ++ second) =
      (appendDistinct stored first).bind fun extended => appendDistinct extended second := by
  induction first generalizing stored with
  | nil => rfl
  | cons document rest ih =>
    rw [List.cons_append, appendDistinct, appendDistinct]
    split
    · rfl
    · exact ih _

/-- A batch is inserted as its two parts are, one after the other. -/
theorem insert_append (store : MemoryStore) (fresh : Nat → ObjectId) (collection : String)
    (first second : List Document) :
    store.insert fresh collection (first ++ second) =
      (store.insert fresh collection first).bind fun extended =>
        extended.insert (idsFrom first.length fresh) collection second := by
  rw [insert, insert, withIds_append, appendDistinct_append]
  cases appendDistinct (store.documents collection) (withIds fresh first) with
  | error id => rfl
  | ok documents =>
    have hread : MemoryStore.documents ⟨store.collections.set collection documents⟩ collection =
        documents := (documents_set_self ..).symm
    simp only [Except.bind, insert, hread, Assoc.set_set]

/-- A place for a collection makes no difference to an insertion into it. -/
theorem insert_reserve (store : MemoryStore) (fresh : Nat → ObjectId) (collection : String)
    (batch : List Document) :
    (store.reserve collection).insert fresh collection batch =
      store.insert fresh collection batch := by
  rw [insert, insert, documents_reserve, reserve]
  simp only [Assoc.set_set]

/-- A write succeeds if the insertion does, and leads to the same store. -/
theorem write_eq_of_insert_eq_ok (h : store.insert fresh collection batch = .ok after) :
    store.write fresh collection batch = (after, .ok ()) := by
  simp only [write, insert_reserve, h]

theorem write_eq_of_insert_eq_error {fault : StoreFault}
    (h : store.insert fresh collection batch = .error fault) :
    store.write fresh collection batch = (store.reserve collection, .error fault) := by
  simp only [write, insert_reserve, h]

theorem write_eq_ok_iff :
    store.write fresh collection batch = (after, .ok ()) ↔
      store.insert fresh collection batch = .ok after := by
  cases hinsert : store.insert fresh collection batch with
  | error fault => simp [write_eq_of_insert_eq_error hinsert]
  | ok extended => simp [write_eq_of_insert_eq_ok hinsert]

/-- If the first part of a batch cannot be written, then neither can the batch. -/
theorem write_append_of_error {fault : StoreFault} {first : List Document}
    (h : store.insert fresh collection first = .error fault) (second : List Document) :
    store.write fresh collection (first ++ second) = store.write fresh collection first := by
  have hwhole : store.insert fresh collection (first ++ second) = .error fault := by
    rw [insert_append, h]
    rfl
  rw [write_eq_of_insert_eq_error h, write_eq_of_insert_eq_error hwhole]

/-- After its first part a batch is written as the second part is, except that nothing
of it is left behind by a refusal. -/
theorem write_append_of_ok {between : MemoryStore} {first : List Document}
    (h : store.insert fresh collection first = .ok between) (second : List Document) :
    (store.write fresh collection (first ++ second)).2 =
        (between.write (idsFrom first.length fresh) collection second).2 ∧
      ((store.write fresh collection (first ++ second)).2 = .ok () →
        (store.write fresh collection (first ++ second)).1 =
          (between.write (idsFrom first.length fresh) collection second).1) := by
  have hwhole : store.insert fresh collection (first ++ second) =
      between.insert (idsFrom first.length fresh) collection second := by
    rw [insert_append, h]
    rfl
  cases hsecond : between.insert (idsFrom first.length fresh) collection second with
  | error fault =>
    rw [hsecond] at hwhole
    simp [write_eq_of_insert_eq_error hwhole, write_eq_of_insert_eq_error hsecond]
  | ok after =>
    rw [hsecond] at hwhole
    simp [write_eq_of_insert_eq_ok hwhole, write_eq_of_insert_eq_ok hsecond]

/-! ## Many batches -/

/-- The identifiers for the documents of several batches, numbered through all of
them. -/
def numbered (fresh : Nat → ObjectId) : List (String × List Document) → Nat → Nat → ObjectId
  | [], _ => fresh
  | _ :: _, 0 => fresh
  | (_, batch) :: rest, place + 1 => numbered (idsFrom batch.length fresh) rest place

/-- The first batch is inserted, and the others after it with the identifiers that
are left. -/
theorem insertAll_numbered_cons (store : MemoryStore) (fresh : Nat → ObjectId)
    (collection : String) (batch : List Document) (rest : List (String × List Document)) :
    store.insertAll (numbered fresh ((collection, batch) :: rest)) ((collection, batch) :: rest) =
      (store.insert fresh collection batch).bind fun extended =>
        extended.insertAll (numbered (idsFrom batch.length fresh) rest) rest := by
  rw [insertAll]
  simp only [numbered]
  cases store.insert fresh collection batch <;> rfl

/-- Two lists of batches that differ only in how neighbours of one collection are
grouped. -/
inductive Regrouped : List (String × List Document) → List (String × List Document) → Prop
  | refl (batches : List (String × List Document)) : Regrouped batches batches
  | split (collection : String) (first second : List Document)
      (rest : List (String × List Document)) :
      Regrouped ((collection, first ++ second) :: rest)
        ((collection, first) :: (collection, second) :: rest)
  | cons (batch : String × List Document) {batches others : List (String × List Document)}
      (h : Regrouped batches others) : Regrouped (batch :: batches) (batch :: others)
  | symm {batches others : List (String × List Document)} (h : Regrouped batches others) :
      Regrouped others batches
  | trans {batches others last : List (String × List Document)} (h : Regrouped batches others)
      (hlast : Regrouped others last) : Regrouped batches last

/-- The grouping of batches does not matter to what inserting them gives. -/
theorem insertAll_of_regrouped {batches others : List (String × List Document)}
    (h : Regrouped batches others) (store : MemoryStore) (fresh : Nat → ObjectId) :
    store.insertAll (numbered fresh batches) batches =
      store.insertAll (numbered fresh others) others := by
  induction h generalizing store fresh with
  | refl => rfl
  | split collection first second rest =>
    simp only [insertAll_numbered_cons, insert_append, idsFrom_idsFrom, List.length_append]
    cases store.insert fresh collection first <;> rfl
  | cons batch _ ih =>
    obtain ⟨collection, batch⟩ := batch
    simp only [insertAll_numbered_cons, ih]
  | symm _ ih => exact (ih store fresh).symm
  | trans _ _ ih ihlast => exact (ih store fresh).trans (ihlast store fresh)

/-- Writes of batches one after the other that all succeed. -/
inductive Written : MemoryStore → (Nat → ObjectId) → List (String × List Document) →
    MemoryStore → Prop
  | nil (store : MemoryStore) (fresh : Nat → ObjectId) : Written store fresh [] store
  | cons {store between after : MemoryStore} {fresh : Nat → ObjectId} {collection : String}
      {batch : List Document} {rest : List (String × List Document)}
      (h : store.write fresh collection batch = (between, .ok ()))
      (hrest : Written between (idsFrom batch.length fresh) rest after) :
      Written store fresh ((collection, batch) :: rest) after

/-- Several insertions succeed if the writes all do, and lead to the same store. -/
theorem insertAll_eq_ok_iff_written :
    store.insertAll (numbered fresh batches) batches = .ok after ↔
      Written store fresh batches after := by
  induction batches generalizing store fresh with
  | nil =>
    constructor
    · intro h
      obtain rfl := Except.ok.inj h
      exact .nil store fresh
    · intro h
      cases h
      rfl
  | cons first rest ih =>
    obtain ⟨collection, batch⟩ := first
    rw [insertAll_numbered_cons]
    constructor
    · intro h
      cases hinsert : store.insert fresh collection batch with
      | error fault =>
        rw [hinsert] at h
        cases h
      | ok between =>
        rw [hinsert] at h
        exact .cons (write_eq_of_insert_eq_ok hinsert) (ih.1 h)
    · intro h
      cases h with
      | cons hwrite hrest =>
        rw [write_eq_ok_iff.1 hwrite]
        exact ih.2 hrest

/-- The grouping of documents into batches does not matter.  A batch is written if and
only if its two parts are, one after the other; then both ways lead to the same store,
with the documents of the batch after those of the collection.  A list of batches gives
the same store or the same fault as any regrouping of it, and it gives a store if and
only if the regrouped batches can all be written in turn, which lead to that store. -/
theorem grouping_of_batches :
    (∀ (store : MemoryStore) (fresh : Nat → ObjectId) (collection : String)
        (first second : List Document),
      let whole := store.write fresh collection (first ++ second)
      let part := store.write fresh collection first
      let parts := part.1.write (idsFrom first.length fresh) collection second
      (whole.2 = .ok () ↔ part.2 = .ok () ∧ parts.2 = .ok ()) ∧
      (whole.2 = .ok () → whole.1 = parts.1 ∧
        parts.1.documents collection =
          store.documents collection ++ withIds fresh (first ++ second))) ∧
    ∀ (fresh : Nat → ObjectId) (seed batches : List (String × List Document)),
      Regrouped seed batches →
        empty.insertAll (numbered fresh seed) seed =
          empty.insertAll (numbered fresh batches) batches ∧
        ∀ after, empty.insertAll (numbered fresh seed) seed = .ok after ↔
          Written empty fresh batches after := by
  constructor
  · intro store fresh collection first second whole part parts
    have happended : whole.2 = .ok () → whole.1.documents collection =
        store.documents collection ++ withIds fresh (first ++ second) := fun hwhole =>
      ((store.write_atomic fresh collection (first ++ second)).appended hwhole).documents_self
    cases hfirst : store.insert fresh collection first with
    | error fault =>
      have hpart : part = (store.reserve collection, .error fault) :=
        write_eq_of_insert_eq_error hfirst
      have hwhole : whole = part := write_append_of_error hfirst second
      simp [hwhole, hpart]
    | ok between =>
      have hpart : part = (between, .ok ()) := write_eq_of_insert_eq_ok hfirst
      have hparts : parts = between.write (idsFrom first.length fresh) collection second := by
        rw [show parts = part.1.write _ _ _ from rfl, hpart]
      obtain ⟨hresult, hstore⟩ := write_append_of_ok hfirst second
      rw [← hparts] at hresult hstore
      refine ⟨⟨fun h => ⟨by rw [hpart], hresult ▸ h⟩, fun h => hresult.trans h.2⟩, fun h => ?_⟩
      exact ⟨hstore h, hstore h ▸ happended h⟩
  · intro fresh seed batches hregrouped
    have hsame := insertAll_of_regrouped hregrouped empty fresh
    refine ⟨hsame, fun after => ?_⟩
    rw [hsame, insertAll_eq_ok_iff_written]

/-- Three documents in two batches, and split the other way; the second gets an
identifier. -/
theorem grouping_of_batches_notes :
    (empty.write (fun place => ⟨place⟩) "notes"
        ([[("_id", .int32 1)]] ++ [[("title", .string "a")]])).1 =
      ((empty.write (fun place => ⟨place⟩) "notes" [[("_id", .int32 1)]]).1.write
        (idsFrom 1 fun place => ⟨place⟩) "notes" [[("title", .string "a")]]).1 ∧
    ∃ after, empty.insertAll
        (numbered (fun place => ⟨place⟩)
          [("notes", [[("_id", .int32 1)], [("title", .string "a")]]),
            ("notes", [[("_id", .int32 2)]])])
        [("notes", [[("_id", .int32 1)], [("title", .string "a")]]),
          ("notes", [[("_id", .int32 2)]])] = .ok after ∧
      Written empty (fun place => ⟨place⟩)
        [("notes", [[("_id", .int32 1)]]),
          ("notes", [[("title", .string "a")], [("_id", .int32 2)]])] after := by
  have hregrouped : Regrouped
      [("notes", [[("_id", .int32 1)], [("title", .string "a")]]),
        ("notes", [[("_id", .int32 2)]])]
      [("notes", [[("_id", .int32 1)]]),
        ("notes", [[("title", .string "a")], [("_id", .int32 2)]])] :=
    .trans (.symm (.split "notes" [[("_id", .int32 1)], [("title", .string "a")]]
        [[("_id", .int32 2)]] []))
      (.split "notes" [[("_id", .int32 1)]]
        [[("title", .string "a")], [("_id", .int32 2)]] [])
  have hseed : empty.insertAll
      (numbered (fun place => ⟨place⟩)
        [("notes", [[("_id", .int32 1)], [("title", .string "a")]]),
          ("notes", [[("_id", .int32 2)]])])
      [("notes", [[("_id", .int32 1)], [("title", .string "a")]]),
        ("notes", [[("_id", .int32 2)]])] =
      .ok ⟨[("notes", [[("_id", .int32 1)],
        [("title", .string "a"), ("_id", .objectId ⟨1⟩)], [("_id", .int32 2)]])]⟩ := rfl
  refine ⟨((grouping_of_batches.1 empty _ "notes" _ _).2 rfl).1, _, hseed, ?_⟩
  exact ((grouping_of_batches.2 _ _ _ hregrouped).2 _).1 hseed

end MemoryStore

end DocGate
