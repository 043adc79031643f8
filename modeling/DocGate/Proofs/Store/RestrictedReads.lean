import DocGate.Proofs.Projection.Visibility
import DocGate.Proofs.Store.Reads

/-!
# Reads under a restriction

A caller who is restricted to columns learns nothing from a read about the
other fields.  Two stores are compared whose documents agree, one by one, on
the visible fields, and on which the condition of the request has the same
outcomes: the caller gets the same items from both.  Besides, no item has a
field that is not visible.

`Collection.find_congr` and `Collection.mem_visibleFields_of_find` are the two
halves, and `Gateway.find_noninterference` is both of them for the gateway.
-/

namespace DocGate

namespace Collection

variable {collection : Collection} {request : FindRequest}

/-- A cast keeps the fields of a document. -/
theorem keys_cast (collection : Collection) (document : Document) :
    (collection.cast document).keys = document.keys :=
  collection.caster.keys_cast document

/-- The condition that a request comes to has the same outcome on two
documents, and no fault. -/
def SameOutcome (collection : Collection) (request : FindRequest)
    (document document' : Document) : Prop :=
  ∀ filter projection condition, collection.prepare request = .ok (filter, projection) →
    Filter.ofDocument filter = .ok condition →
      ∃ outcome, condition.holds document = .ok outcome ∧
        condition.holds document' = .ok outcome

/-- A prepared request under a restriction has a confined projection. -/
theorem confined_of_prepare {filter : Document} {projection : Projection}
    (hcolumns : (Columns.ofText request.columns).names ≠ [])
    (h : collection.prepare request = .ok (filter, projection)) :
    projection = Projection.idOnly ∨
      Projection.Confined (Columns.ofText request.columns) projection :=
  @Projection.confined_of_resolve collection.fieldNames request.selection projection hcolumns
    (prepare_eq_ok_iff.1 h).1

/-- A read depends on the visible fields and on the outcomes of the condition. -/
theorem find_congr {store store' : MemoryStore}
    (hcolumns : (Columns.ofText request.columns).names ≠ [])
    (h : List.Forall₂ (fun document document' =>
        Document.AgreeOn (Columns.ofText request.columns).visibleFields document document' ∧
          collection.SameOutcome request document document')
      (store.documents collection.name) (store'.documents collection.name)) :
    collection.find store request = collection.find store' request := by
  cases hprepare : collection.prepare request with
  | error fault => rw [find, find, hprepare]
  | ok prepared =>
    obtain ⟨filter, projection⟩ := prepared
    cases hcondition : Filter.ofDocument filter with
    | error fault => simp only [find, hprepare, MemoryStore.find, hcondition]
    | ok condition =>
      have houtcomes := h.imp fun document document' hboth =>
        And.intro hboth.1 (hboth.2 filter projection condition hprepare hcondition)
      obtain ⟨selected, selected', hselect, hselect', hagree⟩ := Filter.select_forall₂ houtcomes
      have hitems := Projection.map_apply_congr (confined_of_prepare hcolumns hprepare) hagree
      simp only [find, hprepare, MemoryStore.find, hcondition, hselect, hselect', hitems]

/-- The items of a read have visible fields only. -/
theorem mem_visibleFields_of_find {store : MemoryStore} {found : MemoryStore.Found}
    (hcolumns : (Columns.ofText request.columns).names ≠ [])
    (h : collection.find store request = .ok found) {document : Document}
    (hdocument : .ok document ∈ found) {key : String} (hkey : key ∈ document.keys) :
    key ∈ (Columns.ofText request.columns).visibleFields := by
  obtain ⟨filter, projection, condition, selected, hprepare, -, -, rfl⟩ := find_eq_ok_iff.1 h
  obtain ⟨source, -, hitem⟩ := List.mem_map.1 hdocument
  rcases Projection.apply_of_confined (confined_of_prepare hcolumns hprepare) with
    ⟨name, hfault⟩ | ⟨paths, hroots, happly⟩
  · rw [item, hfault] at hitem
    cases hitem
  · rw [item, happly] at hitem
    obtain rfl := Except.ok.inj hitem
    rw [keys_cast] at hkey
    exact Projection.mem_of_mem_keys_including List.mem_cons_self hroots hkey

end Collection

namespace Gateway

/-- Two stores give a caller who is restricted to columns the same items if
their documents agree on the visible fields and on the outcome of the caller's
condition, and no item has a field that is not visible. -/
theorem find_noninterference (registry : Registry) (name : String) (collection : Collection)
    (request : FindRequest) (hget : registry.get name = .ok collection)
    (hcolumns : (Columns.ofText request.columns).names ≠ []) :
    (∀ store store' : MemoryStore,
      List.Forall₂ (fun document document' =>
          Document.AgreeOn (Columns.ofText request.columns).visibleFields document document' ∧
            collection.SameOutcome request document document')
        (store.documents name) (store'.documents name) →
      Gateway.find ⟨registry, store⟩ name request =
        Gateway.find ⟨registry, store'⟩ name request) ∧
    ∀ store found, Gateway.find ⟨registry, store⟩ name request = .ok found →
      ∀ document, .ok document ∈ found → ∀ key ∈ document.keys,
        key ∈ (Columns.ofText request.columns).visibleFields := by
  obtain rfl := Registry.name_of_get hget
  refine ⟨fun store store' h => ?_, fun store found h document hdocument key hkey => ?_⟩
  · rw [find_of_get hget, find_of_get hget]
    exact Collection.find_congr hcolumns h
  · rw [find_of_get hget] at h
    exact Collection.mem_visibleFields_of_find hcolumns h hdocument hkey

/-- Two notes that differ in a field that the caller may not read. -/
theorem find_noninterference_notes :
    ∃ registry collection,
      Registry.ofDefinitions
          [{ name := "notes"
             endpointBasePath := "/notes"
             fields := [{ name := "title", kind := .string }] }] = .ok registry ∧
      registry.get "notes" = .ok collection ∧
      Gateway.find ⟨registry, ⟨[("notes", [[("_id", .int32 1), ("title", .string "a"),
          ("body", .string "b"), ("__STATE__", .string "PUBLIC")]])]⟩⟩ "notes"
          { columns := some "title" } =
        Gateway.find ⟨registry, ⟨[("notes", [[("_id", .int32 1), ("title", .string "a"),
          ("body", .string "c"), ("__STATE__", .string "PUBLIC")]])]⟩⟩ "notes"
          { columns := some "title" } := by
  obtain ⟨registry, collection, hregistry, hget⟩ := @Registry.exists_get_of_isSome
    [{ name := "notes"
       endpointBasePath := "/notes"
       fields := [{ name := "title", kind := .string }] }] "notes" (by decide +kernel)
  refine ⟨registry, collection, hregistry, hget, ?_⟩
  have hcolumns : (Columns.ofText (some "title")).names ≠ [] := by decide +kernel
  have hvisible : (Columns.ofText (some "title")).visibleFields = ["_id", "title"] := by
    decide +kernel
  refine (find_noninterference registry "notes" collection _ hget hcolumns).1 _ _
    (.cons ⟨?agree, ?outcome⟩ .nil)
  case agree =>
    rw [hvisible]
    intro field hfield
    rcases List.mem_pair.1 hfield with rfl | rfl <;> rfl
  case outcome =>
    intro filter projection condition hprepare hcondition
    obtain ⟨-, query, states, hquery, hstates, rfl⟩ := Collection.prepare_eq_ok_iff.1 hprepare
    obtain rfl : none = query := Except.ok.inj hquery
    obtain rfl : ⟨[.published]⟩ = states := Except.ok.inj hstates
    obtain rfl : Filter.field "__STATE__" .among (.array [.string "PUBLIC"]) = condition :=
      Except.ok.inj hcondition
    exact ⟨true, rfl, rfl⟩

end Gateway

end DocGate
