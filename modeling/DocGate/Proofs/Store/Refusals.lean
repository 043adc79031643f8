import Mathlib.Data.List.Basic
import DocGate.Proofs.Store.Reads

/-!
# Refused requests

A request is refused for its selection, for its query or for a text in its list
of states, and for the first of them where several are bad.
`Collection.Refuses` says so with a case for each of the three, without a store.

* `StateFilter.ofText_eq_error_iff` is the refusal of a list of states.
* `Collection.prepare_eq_error_iff` and `Collection.exists_refuses_iff`: what a
  request is refused for, and when it is refused at all.
* `Collection.find_eq_error_cases` is the inversion of a read that fails: the
  request is refused, or the store fails.

`Gateway.find_refusals` puts them together for the gateway: no stored document
has a part in a refusal.
-/

namespace DocGate

/-! ## States -/

namespace StateFilter

variable {fault : RequestFault}

/-- The first of some texts names no state, or it does and the others are
refused. -/
theorem statesOfTexts_cons_eq_error_iff {text : String} {rest : List String} :
    statesOfTexts (text :: rest) = .error fault ↔
      DocumentState.ofText? text = none ∧ fault = .unknownState text ∨
        (DocumentState.ofText? text).isSome = true ∧ statesOfTexts rest = .error fault := by
  rw [statesOfTexts]
  cases DocumentState.ofText? text with
  | none => simp [eq_comm]
  | some state => cases statesOfTexts rest <;> simp

/-- A list of texts is refused for the first that names no state. -/
theorem statesOfTexts_eq_error_iff {texts : List String} :
    statesOfTexts texts = .error fault ↔
      ∃ known unknown rest, texts = known ++ unknown :: rest ∧
        (∀ text ∈ known, (DocumentState.ofText? text).isSome = true) ∧
        DocumentState.ofText? unknown = none ∧ fault = .unknownState unknown := by
  induction texts with
  | nil => simp [statesOfTexts]
  | cons text texts ih =>
    rw [statesOfTexts_cons_eq_error_iff, ih]
    constructor
    · rintro (⟨hunknown, hfault⟩ | ⟨hknown, known, unknown, rest, rfl, hall, hunknown, hfault⟩)
      · exact ⟨[], text, texts, rfl, List.forall_mem_nil _, hunknown, hfault⟩
      · exact ⟨text :: known, unknown, rest, rfl, List.forall_mem_cons.2 ⟨hknown, hall⟩,
          hunknown, hfault⟩
    · rintro ⟨known, unknown, rest, hsplit, hall, hunknown, hfault⟩
      cases known with
      | nil =>
        obtain ⟨rfl, -⟩ := List.cons.inj hsplit
        exact .inl ⟨hunknown, hfault⟩
      | cons first known =>
        obtain ⟨rfl, rfl⟩ := List.cons.inj hsplit
        obtain ⟨hfirst, hknown⟩ := List.forall_mem_cons.1 hall
        exact .inr ⟨hfirst, known, unknown, rest, rfl, hknown, hunknown, hfault⟩

/-- A list of texts is refused if one of them names no state. -/
theorem exists_statesOfTexts_eq_error_iff {texts : List String} :
    (∃ fault, statesOfTexts texts = .error fault) ↔
      ∃ text ∈ texts, DocumentState.ofText? text = none := by
  induction texts with
  | nil => simp [statesOfTexts]
  | cons text rest ih =>
    simp only [statesOfTexts_cons_eq_error_iff, exists_or, List.exists_mem_cons_iff, ← ih]
    cases DocumentState.ofText? text <;> simp

/-- A list of states is refused if its texts are. -/
theorem ofText_eq_error_iff {text : Option String} :
    ofText text = .error fault ↔ statesOfTexts (Text.listItems (text.getD "")) = .error fault := by
  rw [ofText]
  cases statesOfTexts (Text.listItems (text.getD "")) with
  | error own => simp
  | ok states => cases states <;> simp

end StateFilter

/-! ## Requests -/

namespace Collection

/-- What a collection refuses a request for.  A part of the request counts if
the parts before it are accepted. -/
inductive Refuses (collection : Collection) (request : FindRequest) : RequestFault → Prop
  /-- The selection of fields is rejected. -/
  | selection {fault : RequestFault} (h : collection.resolve request.selection = .error fault) :
      Refuses collection request fault
  /-- There is a query that is not blank, and it is rejected. -/
  | query {fault : RequestFault} {projection : Projection} {text : String}
      (hresolve : collection.resolve request.selection = .ok projection)
      (htext : Text.unlessBlank? request.query = some text)
      (h : collection.query text = .error fault) : Refuses collection request fault
  /-- A text in the list of states names no state, and those before it do. -/
  | states {projection : Projection} {query : Option Document} {known : List String}
      {unknown : String} {rest : List String}
      (hresolve : collection.resolve request.selection = .ok projection)
      (hquery : collection.optionalQuery request.query = .ok query)
      (htexts : Text.listItems (request.states.getD "") = known ++ unknown :: rest)
      (hknown : ∀ text ∈ known, (DocumentState.ofText? text).isSome = true)
      (h : DocumentState.ofText? unknown = none) :
      Refuses collection request (.unknownState unknown)

variable {collection : Collection} {request : FindRequest} {fault : RequestFault}

/-- A query is refused if it is not blank and is rejected. -/
theorem optionalQuery_eq_error_iff {query : Option String} :
    collection.optionalQuery query = .error fault ↔
      ∃ text, Text.unlessBlank? query = some text ∧ collection.query text = .error fault := by
  rw [optionalQuery]
  cases Text.unlessBlank? query with
  | none => simp
  | some text => cases hquery : collection.query text <;> simp [hquery]

/-- The preparation of a request fails for what the request is refused for. -/
theorem prepare_eq_error_iff :
    collection.prepare request = .error fault ↔ collection.Refuses request fault := by
  constructor
  · intro h
    rw [prepare] at h
    cases hresolve : collection.resolve request.selection with
    | error own =>
      simp only [hresolve, Except.error.injEq] at h
      exact h ▸ .selection hresolve
    | ok projection =>
      cases hquery : collection.optionalQuery request.query with
      | error own =>
        simp only [hresolve, hquery, Except.error.injEq] at h
        obtain ⟨text, htext, hrejected⟩ := optionalQuery_eq_error_iff.1 hquery
        exact h ▸ .query hresolve htext hrejected
      | ok query =>
        cases hstates : StateFilter.ofText request.states with
        | ok states => simp [hresolve, hquery, hstates] at h
        | error own =>
          simp only [hresolve, hquery, hstates, Except.error.injEq] at h
          obtain ⟨known, unknown, rest, htexts, hknown, hunknown, rfl⟩ :=
            StateFilter.statesOfTexts_eq_error_iff.1 (StateFilter.ofText_eq_error_iff.1 hstates)
          exact h ▸ .states hresolve hquery htexts hknown hunknown
  · intro h
    cases h with
    | selection h => simp only [prepare, h]
    | query hresolve htext h =>
      have hquery := optionalQuery_eq_error_iff.2 ⟨_, htext, h⟩
      simp only [prepare, hresolve, hquery]
    | states hresolve hquery htexts hknown h =>
      have hstates := StateFilter.ofText_eq_error_iff.2
        (StateFilter.statesOfTexts_eq_error_iff.2 ⟨_, _, _, htexts, hknown, h, rfl⟩)
      simp only [prepare, hresolve, hquery, hstates]

/-- A request is refused if one of its parts is bad, whatever the others are. -/
theorem exists_refuses_iff :
    (∃ fault, collection.Refuses request fault) ↔
      (∃ fault, collection.resolve request.selection = .error fault) ∨
        (∃ text fault, Text.unlessBlank? request.query = some text ∧
          collection.query text = .error fault) ∨
        ∃ text ∈ Text.listItems (request.states.getD ""), DocumentState.ofText? text = none := by
  have hquery : (∃ text fault, Text.unlessBlank? request.query = some text ∧
      collection.query text = .error fault) ↔
        ∃ fault, collection.optionalQuery request.query = .error fault := by
    simp only [optionalQuery_eq_error_iff]
    exact exists_comm
  rw [hquery, ← StateFilter.exists_statesOfTexts_eq_error_iff]
  simp only [← prepare_eq_error_iff, ← StateFilter.ofText_eq_error_iff, prepare]
  cases collection.resolve request.selection with
  | error own => simp
  | ok projection =>
    cases collection.optionalQuery request.query with
    | error own => simp
    | ok query => cases StateFilter.ofText request.states <;> simp

/-! ## Reads -/

/-- A read that fails: the request is refused, or the store fails. -/
theorem find_eq_error_cases {store : MemoryStore} {failure : Failure}
    (h : collection.find store request = .error failure) :
    (∃ fault, collection.Refuses request fault ∧ failure = .request fault) ∨
      ∃ fault, failure = .store fault := by
  rw [find] at h
  cases hprepare : collection.prepare request with
  | error fault =>
    simp only [hprepare, Except.error.injEq] at h
    exact .inl ⟨fault, prepare_eq_error_iff.1 hprepare, h.symm⟩
  | ok prepared =>
    obtain ⟨filter, projection⟩ := prepared
    cases hfind : store.find collection.name filter projection with
    | ok found => simp [hprepare, hfind] at h
    | error fault =>
      simp only [hprepare, hfind, Except.error.injEq] at h
      exact .inr ⟨fault, h.symm⟩

/-- A read of a refused request fails for what the request is refused for. -/
theorem find_of_refuses (h : collection.Refuses request fault) (store : MemoryStore) :
    collection.find store request = .error (.request fault) := by
  rw [find, prepare_eq_error_iff.2 h]

theorem find_eq_request_iff {store : MemoryStore} :
    collection.find store request = .error (.request fault) ↔ collection.Refuses request fault := by
  refine ⟨fun h => ?_, fun h => find_of_refuses h store⟩
  rcases find_eq_error_cases h with ⟨own, hrefuses, hown⟩ | ⟨own, hown⟩
  · exact Failure.request.inj hown ▸ hrefuses
  · cases hown

end Collection

namespace Gateway

/-- Whether a read of a registered collection is refused, and what for, is a
matter of the request: it is the same over any two stores.  The request is
refused if its selection, its query or one of its states is bad, for the first
of them.  A read that fails otherwise fails in the store. -/
theorem find_refusals (registry : Registry) (name : String) (collection : Collection)
    (request : FindRequest) (hget : registry.get name = .ok collection) :
    (∀ store fault, Gateway.find ⟨registry, store⟩ name request = .error (.request fault) ↔
      collection.Refuses request fault) ∧
    (∀ store store' failure, failure.isRequest = true →
      (Gateway.find ⟨registry, store⟩ name request = .error failure ↔
        Gateway.find ⟨registry, store'⟩ name request = .error failure)) ∧
    ((∃ fault, collection.Refuses request fault) ↔
      (∃ fault, collection.resolve request.selection = .error fault) ∨
        (∃ text fault, Text.unlessBlank? request.query = some text ∧
          collection.query text = .error fault) ∨
        ∃ text ∈ Text.listItems (request.states.getD ""), DocumentState.ofText? text = none) ∧
    ∀ store failure, Gateway.find ⟨registry, store⟩ name request = .error failure →
      failure.isRequest = false → ∃ fault, failure = .store fault := by
  refine ⟨fun store fault => ?_, fun store store' failure hrequest => ?_,
    Collection.exists_refuses_iff, fun store failure hfails hother => ?_⟩
  · rw [find_of_get hget]
    exact Collection.find_eq_request_iff
  · cases failure with
    | request fault =>
      rw [find_of_get hget, find_of_get hget, Collection.find_eq_request_iff,
        Collection.find_eq_request_iff]
    | _ => cases hrequest
  · rw [find_of_get hget] at hfails
    rcases Collection.find_eq_error_cases hfails with ⟨fault, -, rfl⟩ | hstore
    · cases hother
    · exact hstore

/-- A request with three bad parts, with two, and with one, over a store with a
note. -/
theorem find_refusals_archived :
    ∃ registry collection,
      Registry.ofDefinitions
          [{ name := "notes"
             endpointBasePath := "/notes"
             fields := [{ name := "title", kind := .string }] }] = .ok registry ∧
      registry.get "notes" = .ok collection ∧
      ∀ store,
        Gateway.find ⟨registry, store⟩ "notes"
            { fields := some "title", raw := some " ", query := some "[]", states := some "OLD" } =
          .error (.request .twoSelections) ∧
        Gateway.find ⟨registry, store⟩ "notes"
            { fields := some "title", query := some "[]", states := some "OLD" } =
          .error (.request (.notObject .filter)) ∧
        Gateway.find ⟨registry, store⟩ "notes" { fields := some "title", states := some "DRAFT, OLD" } =
          .error (.request (.unknownState "OLD")) := by
  obtain ⟨registry, collection, hregistry, hget⟩ := @Registry.exists_get_of_isSome
    [{ name := "notes"
       endpointBasePath := "/notes"
       fields := [{ name := "title", kind := .string }] }] "notes" (by decide +kernel)
  refine ⟨registry, collection, hregistry, hget, fun store => ⟨?selection, ?query, ?states⟩⟩
  case selection =>
    refine ((find_refusals registry "notes" collection _ hget).1 store _).2 (.selection ?_)
    rfl
  case query =>
    refine ((find_refusals registry "notes" collection _ hget).1 store _).2
      (@Collection.Refuses.query _ _ _ ⟨[("title", .int32 1)]⟩ "[]" ?_ ?_ ?_)
    · rfl
    · rfl
    · rfl
  case states =>
    refine ((find_refusals registry "notes" collection _ hget).1 store _).2
      (@Collection.Refuses.states _ _ ⟨[("title", .int32 1)]⟩ none ["DRAFT"] "OLD" [] ?_ ?_ ?_ ?_ ?_)
    · rfl
    · rfl
    · decide +kernel
    · decide +kernel
    · decide +kernel

end Gateway

end DocGate
