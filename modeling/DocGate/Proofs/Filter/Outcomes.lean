import Mathlib.Data.List.Forall2
import DocGate.Proofs.Filter.Lowering
import DocGate.Proofs.Filter.Reading

/-!
# Outcomes of conditions

The outcome that a condition has on a document, told from the filter document that
the condition comes of.  The test of the document fails where it comes to a
membership test without a list, and otherwise it says what the direct reading says
(`Filter.outcome`).

* A list of conditions is tested up to the first one that decides
  (`Filter.allHold_cons`, `Filter.anyHolds_cons`).
* `Filter.holds_eq_outcome` is the recursion on the filter document.
* `Filter.holds_of_ofDocument`: if all membership tests have lists, then the test
  comes to none without one, so it has the outcome of the direct reading.
-/

namespace DocGate

namespace Filter

variable {document : Document}

/-! ## Lists of conditions -/

/-- What a test says that may come to a membership test without a list. -/
def outcome (stumbles holds : Bool) : Except StoreFault Bool :=
  if stumbles then .error .membershipOperand else .ok holds

theorem outcome_eq_error_iff {stumbles holds : Bool} :
    (∃ fault, outcome stumbles holds = .error fault) ↔ stumbles = true := by
  cases stumbles <;> simp [outcome]

/-- A single condition instead of a list of one makes no difference. -/
theorem holds_collapse (parts : List Filter) :
    holds document (collapse parts) = allHold document parts := by
  match parts with
  | [] => rfl
  | [part] =>
    rw [collapse, allHold]
    cases holds document part with
    | error fault => rfl
    | ok outcome => cases outcome <;> rfl
  | _ :: _ :: _ => rfl

/-- Conditions are tested for all to hold up to the first that does not. -/
theorem allHold_cons {part : Filter} {rest : List Filter} {stumbles first stumble others : Bool}
    (hpart : holds document part = outcome stumbles first)
    (hrest : allHold document rest = outcome stumble others) :
    allHold document (part :: rest) =
      outcome (stumbles || first && stumble) (first && others) := by
  rw [allHold, hpart]
  cases stumbles with
  | true => rfl
  | false =>
    cases first with
    | true => exact hrest
    | false => rfl

/-- Conditions are tested for one to hold up to the first that does. -/
theorem anyHolds_cons {part : Filter} {rest : List Filter} {stumbles first stumble others : Bool}
    (hpart : holds document part = outcome stumbles first)
    (hrest : anyHolds document rest = outcome stumble others) :
    anyHolds document (part :: rest) =
      outcome (stumbles || first == false && stumble) (first || others) := by
  rw [anyHolds, hpart]
  cases stumbles with
  | true => rfl
  | false =>
    cases first with
    | true => rfl
    | false => exact hrest

/-- The opposite of an outcome. -/
theorem map_not_outcome (stumbles holds : Bool) :
    (outcome stumbles holds).map not = outcome stumbles !holds := by
  cases stumbles <;> rfl

/-- Each of some conditions has the outcome of a filter in the operand of a logical
operator. -/
def OutcomesOf (document : Document) (parts : List Filter) (items : List Bson) : Prop :=
  List.Forall₂ (fun part item => holds document part =
    outcome (FilterDocument.itemStumbles document item) (FilterDocument.itemHolds document item))
    parts items

theorem OutcomesOf.allHold {parts : List Filter} {items : List Bson}
    (h : OutcomesOf document parts items) :
    allHold document parts =
      outcome (FilterDocument.itemsStumble document true items)
        ((FilterDocument.itemOutcomes document items).all id) := by
  induction h with
  | nil => rfl
  | cons hpart _ ih =>
    rw [FilterDocument.itemsStumble, FilterDocument.itemOutcomes, List.all_cons, beq_true]
    exact allHold_cons hpart ih

theorem OutcomesOf.anyHolds {parts : List Filter} {items : List Bson}
    (h : OutcomesOf document parts items) :
    anyHolds document parts =
      outcome (FilterDocument.itemsStumble document false items)
        ((FilterDocument.itemOutcomes document items).any id) := by
  induction h with
  | nil => rfl
  | cons hpart _ ih =>
    rw [FilterDocument.itemsStumble, FilterDocument.itemOutcomes, List.any_cons]
    exact anyHolds_cons hpart ih

/-! ## Single operators -/

/-- A comparison has the outcome that its operator says, and fails if it is a membership
test without a list. -/
theorem compares_eq {path operator : String} (operand : Bson) {comparison : Comparison}
    (h : Comparison.ofOperator? operator = some comparison) :
    compares (fieldValue document path) operand comparison =
      outcome (if operator = "$in" ∨ operator = "$nin" then !FilterDocument.isArray operand
          else false)
        (FilterDocument.comparisonHolds document path operator operand) := by
  have hmem := ofOperator?_cases h
  simp only [List.mem_cons, Prod.mk.injEq, List.not_mem_nil, or_false] at hmem
  rcases hmem with ⟨rfl, rfl⟩ | ⟨rfl, rfl⟩ | ⟨rfl, rfl⟩ | ⟨rfl, rfl⟩ | ⟨rfl, rfl⟩ | ⟨rfl, rfl⟩ |
    ⟨rfl, rfl⟩ | ⟨rfl, rfl⟩
  iterate 6 rfl
  · cases operand <;> rfl
  · cases operand <;> rfl

/-! ## The recursion on filter documents -/

-- One theorem for each function of the reading, by recursion on the filter
-- document.  What carries the recursion is the outcome of every part, with its two
-- sides: whether the test stumbles, and what it says if not.
mutual

/-- The conditions for the entries of a filter document. -/
theorem allHold_of_ofEntries : ∀ {entries : List (String × Bson)} {parts : List Filter},
    ofEntries entries = .ok parts →
      allHold document parts = outcome (FilterDocument.entriesStumble document entries)
        (FilterDocument.entriesHold document entries)
  | [], parts, hparts => by
    obtain rfl := Except.ok.inj hparts
    rfl
  | (key, value) :: rest, parts, hparts => by
    obtain ⟨part, others, hpart, hothers, rfl⟩ := ofEntries_cons_eq_ok_iff.1 hparts
    rw [FilterDocument.entriesStumble]
    simp only [FilterDocument.entriesHold, Bool.and_true]
    refine allHold_cons ?_ (allHold_of_ofEntries hothers)
    rcases ofEntry_cases hpart with ⟨operands, hoperands, hkind⟩ | ⟨hplain, hcondition⟩
    · obtain ⟨items, rfl, houtcomes⟩ := outcomes_of_ofOperand hoperands
      rcases hkind with ⟨rfl, rfl⟩ | ⟨rfl, rfl⟩ | ⟨rfl, rfl⟩
      · exact houtcomes.allHold
      · exact houtcomes.anyHolds
      · rw [holds, houtcomes.anyHolds, map_not_outcome]
        rfl
    · have hand : key ≠ "$and" := ne_of_plain hplain (by decide)
      have hor : key ≠ "$or" := ne_of_plain hplain (by decide)
      have hnor : key ≠ "$nor" := ne_of_plain hplain (by decide)
      rw [if_neg hand, if_neg (not_or.2 ⟨hor, hnor⟩), if_neg hand, if_neg hor, if_neg hnor]
      exact holds_of_ofCondition hcondition

/-- The conditions in the operand of a logical operator. -/
theorem outcomes_of_ofOperand : ∀ {operator : String} {operand : Bson} {parts : List Filter},
    ofOperand operator operand = .ok parts →
      ∃ items, operand = .array items ∧ OutcomesOf document parts items
  | operator, operand, parts, hparts => by
    cases operand with
    | array items => exact ⟨items, rfl, outcomes_of_ofItems hparts⟩
    | _ => cases hparts

theorem outcomes_of_ofItems : ∀ {operator : String} {items : List Bson} {parts : List Filter},
    ofItems operator items = .ok parts → OutcomesOf document parts items
  | _, [], _, hparts => by
    obtain rfl := Except.ok.inj hparts
    exact .nil
  | _, item :: rest, _, hparts => by
    obtain ⟨part, others, hpart, hothers, rfl⟩ := ofItems_cons_eq_ok_iff.1 hparts
    exact .cons (holds_of_ofItem hpart) (outcomes_of_ofItems hothers)

theorem holds_of_ofItem : ∀ {operator : String} {item : Bson} {part : Filter},
    ofItem operator item = .ok part →
      holds document part = outcome (FilterDocument.itemStumbles document item)
        (FilterDocument.itemHolds document item)
  | operator, item, part, hpart => by
    cases item with
    | document entries =>
      obtain ⟨parts, hparts, rfl⟩ := map_eq_ok_iff.1 hpart
      rw [holds_collapse]
      exact allHold_of_ofEntries hparts
    | _ => cases hpart

/-- The condition on the value at a path. -/
theorem holds_of_ofCondition : ∀ {path : String} {value : Bson} {part : Filter},
    ofCondition path value = .ok part →
      holds document part = outcome (FilterDocument.conditionStumbles document path value)
        (FilterDocument.conditionHolds document path value)
  | path, value, part, hpart => by
    cases value with
    | document entries =>
      rw [ofCondition] at hpart
      rw [FilterDocument.conditionStumbles, FilterDocument.conditionHolds]
      split at hpart
      · rename_i hoperator
        obtain ⟨parts, hparts, rfl⟩ := map_eq_ok_iff.1 hpart
        rw [holds_collapse, hoperator, Bool.true_and, if_pos rfl]
        exact allHold_of_ofOperators hparts
      · rename_i hoperator
        obtain rfl := Except.ok.inj hpart
        rw [if_neg hoperator, Bool.eq_false_iff.2 hoperator, Bool.false_and]
        rfl
    | _ =>
      obtain rfl := Except.ok.inj hpart
      rfl

theorem allHold_of_ofOperators : ∀ {path : String} {entries : List (String × Bson)}
    {parts : List Filter},
    ofOperators path entries = .ok parts →
      allHold document parts = outcome (FilterDocument.operatorsStumble document path entries)
        (FilterDocument.operatorsHold document path entries)
  | path, [], parts, hparts => by
    obtain rfl := Except.ok.inj hparts
    rfl
  | path, (operator, operand) :: rest, parts, hparts => by
    obtain ⟨part, others, hpart, hothers, rfl⟩ := ofOperators_cons_eq_ok_iff.1 hparts
    rw [FilterDocument.operatorsStumble]
    simp only [FilterDocument.operatorsHold, Bool.and_true]
    refine allHold_cons ?_ (allHold_of_ofOperators hothers)
    rcases ofOperator_cases hpart with ⟨rfl, rfl⟩ | ⟨rfl, negated, hnegated, rfl⟩ |
      ⟨comparison, hcomparison, rfl⟩
    · rfl
    · rw [holds, holds_of_ofCondition hnegated, map_not_outcome]
      rfl
    · have hne : ∀ other, Comparison.ofOperator? other = none → operator ≠ other := by
        rintro other hnone rfl
        rw [hnone] at hcomparison
        cases hcomparison
      have hexists := hne "$exists" (by decide)
      have hnot := hne "$not" (by decide)
      rw [if_neg hnot, if_neg hexists, if_neg hnot]
      exact compares_eq operand hcomparison

end

/-- The outcome of the condition that a filter document is turned into. -/
theorem holds_eq_outcome {entries : Document} {condition : Filter}
    (h : ofDocument entries = .ok condition) (document : Document) :
    condition.holds document = outcome (FilterDocument.entriesStumble document entries)
      (FilterDocument.entriesHold document entries) := by
  obtain ⟨parts, hparts, rfl⟩ := map_eq_ok_iff.1 h
  rw [holds_collapse]
  exact allHold_of_ofEntries hparts

end Filter

/-! ## Filter documents in which all membership tests have lists -/

namespace FilterDocument

variable {document : Document}

mutual

/-- A test does not stumble where all membership tests have lists. -/
theorem entriesStumble_of_listed : ∀ {entries : List (String × Bson)},
    entriesListed entries = true → entriesStumble document entries = false
  | [], _ => rfl
  | (key, value) :: rest, hlisted => by
    rw [entriesListed, Bool.and_eq_true] at hlisted
    obtain ⟨hvalue, hrest⟩ := hlisted
    rw [entriesStumble, entriesStumble_of_listed hrest, Bool.and_false, Bool.or_false]
    split
    · rename_i hand
      rw [if_pos (.inl hand)] at hvalue
      exact operandStumbles_of_listed true hvalue
    · rename_i hand
      split
      · rename_i hother
        rw [if_pos (.inr hother)] at hvalue
        exact operandStumbles_of_listed false hvalue
      · rename_i hother
        rw [if_neg (not_or.2 ⟨hand, hother⟩)] at hvalue
        exact conditionStumbles_of_listed key hvalue

theorem operandStumbles_of_listed : ∀ {operand : Bson} (onward : Bool),
    operandListed operand = true → operandStumbles document onward operand = false
  | operand, onward, hlisted => by
    cases operand with
    | array items => exact itemsStumble_of_listed onward hlisted
    | _ => rfl

theorem itemsStumble_of_listed : ∀ {items : List Bson} (onward : Bool),
    itemsListed items = true → itemsStumble document onward items = false
  | [], _, _ => rfl
  | item :: rest, onward, hlisted => by
    rw [itemsListed, Bool.and_eq_true] at hlisted
    rw [itemsStumble, itemStumbles_of_listed hlisted.1, itemsStumble_of_listed onward hlisted.2,
      Bool.and_false, Bool.or_false]

theorem itemStumbles_of_listed : ∀ {item : Bson},
    itemListed item = true → itemStumbles document item = false
  | item, hlisted => by
    cases item with
    | document entries => exact entriesStumble_of_listed hlisted
    | _ => rfl

theorem conditionStumbles_of_listed : ∀ {value : Bson} (path : String),
    conditionListed value = true → conditionStumbles document path value = false
  | value, path, hlisted => by
    cases value with
    | document entries =>
      rw [conditionListed, Bool.or_eq_true, Bool.not_eq_true'] at hlisted
      rw [conditionStumbles]
      rcases hlisted with hplain | hlisted
      · rw [hplain, Bool.false_and]
      · rw [operatorsStumble_of_listed path hlisted, Bool.and_false]
    | _ => rfl

theorem operatorsStumble_of_listed : ∀ {operators : List (String × Bson)} (path : String),
    operatorsListed operators = true → operatorsStumble document path operators = false
  | [], _, _ => rfl
  | (operator, operand) :: rest, path, hlisted => by
    rw [operatorsListed, Bool.and_eq_true] at hlisted
    obtain ⟨hoperand, hrest⟩ := hlisted
    rw [operatorsStumble, operatorsStumble_of_listed path hrest, Bool.and_false, Bool.or_false]
    split
    · rename_i hnot
      rw [if_pos hnot] at hoperand
      exact conditionStumbles_of_listed path hoperand
    · rename_i hnot
      rw [if_neg hnot] at hoperand
      split
      · rename_i hmembership
        rw [if_pos hmembership] at hoperand
        rw [hoperand, Bool.not_true]
      · rfl

end

end FilterDocument

namespace Filter

/-- A filter document whose membership tests have lists comes to a condition
that has the outcome that the document says. -/
theorem holds_of_ofDocument {document entries : Document} {condition : Filter}
    (h : ofDocument entries = .ok condition)
    (hlisted : FilterDocument.entriesListed entries = true) :
    condition.holds document = .ok (FilterDocument.entriesHold document entries) := by
  rw [holds_eq_outcome h, FilterDocument.entriesStumble_of_listed hlisted]
  rfl

end Filter

end DocGate
