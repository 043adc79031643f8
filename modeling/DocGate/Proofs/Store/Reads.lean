import Mathlib.Data.List.Forall2
import DocGate.Store.Gateway

/-!
# Reads, step by step

What a read comes to, without the steps in between.

* `Collection.prepare_eq_ok_iff` is the preparation of a request, which does not
  look at the store.
* `Collection.find_eq_ok_iff` is the read of a prepared request: the condition
  selects documents, and each of them gives one item.
* `Filter.select_eq_ok_iff` is the selection by a condition, and
  `Filter.select_forall₂` compares two selections by the same condition.
-/

namespace DocGate

/-! ## Selection -/

namespace Filter

variable {condition : Filter}

/-- A condition that has an outcome on every document selects those that it
holds of. -/
theorem select_eq_filter {outcome : Document → Bool} {documents : List Document}
    (h : ∀ document ∈ documents, condition.holds document = .ok (outcome document)) :
    condition.select documents = .ok (documents.filter outcome) := by
  induction documents with
  | nil => rfl
  | cons document rest ih =>
    have hrest := ih fun other hother => h other (List.mem_cons_of_mem _ hother)
    rw [select, h document List.mem_cons_self]
    simp only [hrest]
    cases houtcome : outcome document with
    | true => rw [if_pos rfl, List.filter_cons_of_pos houtcome]
    | false => rw [if_neg Bool.false_ne_true, List.filter_cons_of_neg (by rw [houtcome]; decide)]

/-- Whether a condition holds of a document without fault. -/
def accepts (condition : Filter) (document : Document) : Bool :=
  match condition.holds document with
  | .ok outcome => outcome
  | .error _ => false

theorem accepts_eq {document : Document} {outcome : Bool}
    (h : condition.holds document = .ok outcome) : condition.accepts document = outcome := by
  rw [accepts, h]

/-- Documents that are related and on which a condition has the same outcome are
selected together. -/
theorem select_forall₂ {related : Document → Document → Prop} {documents documents' : List Document}
    (h : List.Forall₂ (fun document document' => related document document' ∧
      ∃ outcome, condition.holds document = .ok outcome ∧ condition.holds document' = .ok outcome)
      documents documents') :
    ∃ selected selected', condition.select documents = .ok selected ∧
      condition.select documents' = .ok selected' ∧ List.Forall₂ related selected selected' := by
  induction h with
  | nil => exact ⟨[], [], rfl, rfl, .nil⟩
  | cons hfirst _ ih =>
    obtain ⟨hrelated, outcome, hholds, hholds'⟩ := hfirst
    obtain ⟨selected, selected', hselect, hselect', hall⟩ := ih
    rw [select, select, hholds, hholds', hselect, hselect']
    cases outcome with
    | true => exact ⟨_, _, rfl, rfl, .cons hrelated hall⟩
    | false => exact ⟨_, _, rfl, rfl, hall⟩

end Filter

/-! ## Preparation -/

namespace Collection

variable {collection : Collection} {request : FindRequest} {filter : Document}
  {projection : Projection}

/-- A request is prepared if its selection, its query and its states are
accepted. -/
theorem prepare_eq_ok_iff :
    collection.prepare request = .ok (filter, projection) ↔
      collection.resolve request.selection = .ok projection ∧
        ∃ query states, collection.optionalQuery request.query = .ok query ∧
          StateFilter.ofText request.states = .ok states ∧ filter = states.combine query := by
  unfold prepare
  cases collection.resolve request.selection with
  | error fault => simp
  | ok resolved =>
    cases collection.optionalQuery request.query with
    | error fault => simp
    | ok query =>
      cases StateFilter.ofText request.states with
      | error fault => simp
      | ok states => simp [and_comm, eq_comm]

/-- What a read gives for a selected document: the cast of its projection. -/
def item (collection : Collection) (projection : Projection) (document : Document) :
    Except StoreFault Document :=
  (projection.apply document).map collection.cast

/-- A read of a prepared request. -/
theorem find_of_prepare {store : MemoryStore} {condition : Filter}
    (hprepare : collection.prepare request = .ok (filter, projection))
    (hcondition : Filter.ofDocument filter = .ok condition) :
    collection.find store request =
      match condition.select (store.documents collection.name) with
      | .error fault => .error (.store fault)
      | .ok selected =>
        .ok (selected.map (collection.item projection)) := by
  rw [find, hprepare]
  simp only [MemoryStore.find, hcondition]
  cases condition.select (store.documents collection.name) with
  | error fault => rfl
  | ok selected => exact congrArg Except.ok (List.map_map ..)

/-- A read without fault has prepared the request and selected documents, each
of which gives one item. -/
theorem find_eq_ok_iff {store : MemoryStore} {found : MemoryStore.Found} :
    collection.find store request = .ok found ↔
      ∃ filter projection condition selected,
        collection.prepare request = .ok (filter, projection) ∧
          Filter.ofDocument filter = .ok condition ∧
          condition.select (store.documents collection.name) = .ok selected ∧
          found = selected.map (collection.item projection) := by
  constructor
  · intro h
    cases hprepare : collection.prepare request with
    | error fault => simp [find, hprepare] at h
    | ok prepared =>
      obtain ⟨filter, projection⟩ := prepared
      cases hcondition : Filter.ofDocument filter with
      | error fault => simp [find, hprepare, MemoryStore.find, hcondition] at h
      | ok condition =>
        rw [find_of_prepare hprepare hcondition] at h
        cases hselect : condition.select (store.documents collection.name) with
        | error fault => simp [hselect] at h
        | ok selected =>
          rw [hselect] at h
          exact ⟨filter, projection, condition, selected, rfl, hcondition, hselect,
            (Except.ok.inj h).symm⟩
  · rintro ⟨filter, projection, condition, selected, hprepare, hcondition, hselect, rfl⟩
    rw [find_of_prepare hprepare hcondition, hselect]

end Collection

namespace Gateway

/-- A read of a registered collection is a read of the collection. -/
theorem find_of_get {registry : Registry} {name : String} {collection : Collection}
    (h : registry.get name = .ok collection) (store : MemoryStore) (request : FindRequest) :
    Gateway.find ⟨registry, store⟩ name request = collection.find store request := by
  rw [find, h]

end Gateway

end DocGate
