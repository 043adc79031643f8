import DocGate.Proofs.Filter.Outcomes
import DocGate.Proofs.Store.Identity
import DocGate.Proofs.Store.Reads

/-!
# Filters that a store supports

A read fails for one of two reasons.  The filter document cannot be turned into a
condition, whatever is stored; or the test of a stored document comes to a
membership test without a list (`MemoryStore.fails_iff`).  The second reason depends
on what is stored: an empty collection never shows it, and a condition before the
membership test may keep every document away from it.

So a filter fails alike on all contents just if it is refused at once or no document
that can be stored comes to such a test (`MemoryStore.fails_alike_iff`).  Filters in
which every membership test has a list are among these.  The contents are those that
writes of documents without repeated names lead to (`MemoryStore.IsContent.write`).
-/

namespace DocGate

namespace Filter

/-- A selection fails if the test of one of the documents does. -/
theorem select_eq_error_iff {condition : Filter} {documents : List Document} :
    (∃ fault, condition.select documents = .error fault) ↔
      ∃ document ∈ documents, ∃ fault, condition.holds document = .error fault := by
  induction documents with
  | nil => simp [select]
  | cons document rest ih =>
    simp only [List.mem_cons, exists_eq_or_imp]
    rw [← ih, select]
    cases condition.holds document with
    | error fault => simp
    | ok selected => cases condition.select rest <;> simp

end Filter

/-- Whether a document is one as stores hold them: it has an identifier, and no name
occurs twice in it. -/
def Document.Storable (document : Document) : Prop :=
  document.contains Bookkeeping.idField = true ∧ Bson.NamesDistinct (.document document)

namespace MemoryStore

variable {store : MemoryStore} {collection : String} {filter : Document} {projection : Projection}

/-! ## Contents -/

/-- Whether a store is one that insertions lead to: its documents have different
identifiers, and no name occurs twice in one of them.  Writes keep it that way
(`IsContent.write`). -/
structure IsContent (store : MemoryStore) : Prop where
  identified : store.IsIdentified
  distinct : ∀ collection, ∀ document ∈ store.documents collection,
    Bson.NamesDistinct (.document document)

theorem namesDistinct_of_mem_withIds {fresh : Nat → ObjectId} {batch : List Document}
    {document : Document} (hbatch : ∀ own ∈ batch, Bson.NamesDistinct (.document own))
    (h : document ∈ withIds fresh batch) : Bson.NamesDistinct (.document document) := by
  obtain ⟨place, hplace, rfl⟩ := List.mem_mapIdx.1 h
  have hown := hbatch _ (List.getElem_mem hplace)
  rw [withId]
  split
  · exact hown
  · exact hown.set Bookkeeping.idField (.scalar rfl)

/-- A write of documents without repeated names leads from one content to another,
whether it succeeds or not. -/
theorem IsContent.write (h : store.IsContent) (fresh : Nat → ObjectId) (name : String)
    {batch : List Document} (hbatch : ∀ document ∈ batch, Bson.NamesDistinct (.document document)) :
    (store.write fresh name batch).1.IsContent where
  identified := h.identified.write fresh name batch
  distinct other document hdocument := by
    rcases store.write_cases fresh name batch with ⟨-, -, happended⟩ | ⟨-, -, hsame⟩
    · by_cases hother : other = name
      · subst hother
        rw [happended.documents_self] at hdocument
        rcases List.mem_append.1 hdocument with hstored | hadded
        · exact h.distinct other document hstored
        · exact namesDistinct_of_mem_withIds hbatch hadded
      · rw [happended.documents_of_ne other hother] at hdocument
        exact h.distinct other document hdocument
    · rw [hsame other] at hdocument
      exact h.distinct other document hdocument

/-- The store with one document. -/
def single (collection : String) (document : Document) : MemoryStore :=
  ⟨[(collection, [document])]⟩

theorem documents_single (collection : String) (document : Document) :
    (single collection document).documents collection = [document] := by
  simp [documents, single, Assoc.get?]

theorem mem_documents_single {name : String} {document other : Document}
    (h : other ∈ (single collection document).documents name) : other = document := by
  by_cases hname : collection = name
  · subst hname
    rw [documents_single] at h
    exact List.mem_singleton.1 h
  · simp [documents, single, Assoc.get?, hname] at h

theorem isContent_empty : empty.IsContent where
  identified := isIdentified_empty
  distinct _ _ h := by cases h

/-- A document that can be stored is stored alone. -/
theorem isContent_single {document : Document} (h : document.Storable) :
    (single collection document).IsContent where
  identified name := by
    constructor
    · intro other hother
      rw [mem_documents_single hother]
      exact h.1
    · by_cases hname : collection = name
      · subst hname
        rw [documents_single]
        exact List.pairwise_singleton ..
      · simp [documents, single, Assoc.get?, hname]
  distinct name other hother := by
    rw [mem_documents_single hother]
    exact h.2

/-! ## Failing reads -/

/-- Whether a read fails. -/
def Fails (store : MemoryStore) (collection : String) (filter : Document)
    (projection : Projection) : Prop :=
  ∃ fault, store.find collection filter projection = .error fault

/-- A read fails if its filter cannot be turned into a condition, or if the test of a
document of the collection comes to a membership test without a list. -/
theorem fails_iff :
    store.Fails collection filter projection ↔
      (∃ fault, Filter.ofDocument filter = .error fault) ∨
        ∃ document ∈ store.documents collection,
          FilterDocument.entriesStumble document filter = true := by
  rw [Fails, find]
  cases hcondition : Filter.ofDocument filter with
  | error fault => simp
  | ok condition =>
    have hselect : (∃ fault, condition.select (store.documents collection) = .error fault) ↔
        ∃ document ∈ store.documents collection,
          FilterDocument.entriesStumble document filter = true := by
      rw [Filter.select_eq_error_iff]
      simp only [Filter.holds_eq_outcome hcondition, Filter.outcome_eq_error_iff]
    simp only [← hselect]
    cases condition.select (store.documents collection) <;> simp

/-- A read fails for its filter or for a document that it tests.  So a filter fails
alike on any two contents just if it cannot be turned into a condition, or if the test
of no document comes to a membership test without a list; and none does if every
membership test in the filter has a list. -/
theorem fails_alike_iff (filter : Document) :
    (∀ (store : MemoryStore) (collection : String) (projection : Projection),
      store.Fails collection filter projection ↔
        (∃ fault, Filter.ofDocument filter = .error fault) ∨
          ∃ document ∈ store.documents collection,
            FilterDocument.entriesStumble document filter = true) ∧
    ((∀ (store store' : MemoryStore) (collection : String) (projection : Projection),
        store.IsContent → store'.IsContent →
          (store.Fails collection filter projection ↔
            store'.Fails collection filter projection)) ↔
      (∃ fault, Filter.ofDocument filter = .error fault) ∨
        ∀ document : Document, document.Storable →
          FilterDocument.entriesStumble document filter = false) ∧
    (FilterDocument.entriesListed filter = true → ∀ document : Document,
      FilterDocument.entriesStumble document filter = false) := by
  refine ⟨fun _ _ _ => fails_iff, ⟨fun halike => ?_, fun hnever => ?_⟩,
    fun hlisted _ => FilterDocument.entriesStumble_of_listed hlisted⟩
  · rw [or_iff_not_imp_left]
    intro haccepted document hstorable
    rw [Bool.eq_false_iff]
    intro hstumbles
    have hsingle : (single "" document).Fails "" filter Projection.idOnly :=
      fails_iff.2 (.inr ⟨document, by simp [documents_single], hstumbles⟩)
    have hempty := (halike empty (single "" document) "" Projection.idOnly isContent_empty
      (isContent_single hstorable)).2 hsingle
    rcases fails_iff.1 hempty with hrefused | ⟨other, hother, -⟩
    · exact haccepted hrefused
    · cases hother
  · intro store store' collection projection hcontent hcontent'
    rcases hnever with hrefused | hnever
    · exact iff_of_true (fails_iff.2 (.inl hrefused)) (fails_iff.2 (.inl hrefused))
    · have hdocuments : ∀ content : MemoryStore, content.IsContent →
          ¬ ∃ document ∈ content.documents collection,
            FilterDocument.entriesStumble document filter = true := by
        rintro content hproper ⟨document, hdocument, hstumbles⟩
        have hstorable : document.Storable :=
          ⟨(hproper.identified collection).contains_id document hdocument,
            hproper.distinct collection document hdocument⟩
        rw [hnever document hstorable] at hstumbles
        cases hstumbles
      rw [fails_iff, fails_iff, or_iff_left (hdocuments store hcontent),
        or_iff_left (hdocuments store' hcontent')]

/-- A membership test whose operand is a number fails on a document and not on an empty
collection. -/
theorem not_fails_alike :
    ¬ ∀ (filter : Document) (projection : Projection) (store store' : MemoryStore)
        (collection : String), store.IsContent → store'.IsContent →
      (store.Fails collection filter projection ↔
        store'.Fails collection filter projection) := by
  intro halike
  have hstorable : Document.Storable [("_id", .int32 1), ("size", .int32 5)] := by
    have hnames : Assoc.Distinct [("_id", Bson.int32 1), ("size", .int32 5)] := by
      simp [Assoc.Distinct, Assoc.keys]
    refine ⟨by decide, .document hnames ?_⟩
    intro entry hentry
    simp only [List.mem_cons, List.not_mem_nil, or_false] at hentry
    rcases hentry with rfl | rfl
    · exact .scalar rfl
    · exact .scalar rfl
  have hfails : (single "boxes" [("_id", .int32 1), ("size", .int32 5)]).Fails "boxes"
      [("size", .document [("$in", .int32 5)])] Projection.idOnly := ⟨.membershipOperand, rfl⟩
  obtain ⟨fault, hfault⟩ := (halike _ _ _ empty "boxes" (isContent_single hstorable)
    isContent_empty).1 hfails
  have hnothing : empty.find "boxes" [("size", .document [("$in", .int32 5)])] Projection.idOnly =
      .ok [] := rfl
  rw [hnothing] at hfault
  cases hfault

end MemoryStore

end DocGate
