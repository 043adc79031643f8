import DocGate.Filter.Eval

/-!
# The direct reading of filter documents

What a filter document says, read off the document itself and not off the
condition that it is turned into.  All entries hold.  `$and`, `$or` and `$nor`
ask whether all, some or none of the filters in their operand hold.  A condition
on a field without an operator is an equality, and one with operators is the
conjunction of them, in which `$not` negates its operand, read as a condition on
the same field.

A membership test needs a list of values.  `FilterDocument.entriesListed` says
that every one in a filter document has a list, and
`FilterDocument.entriesStumble` that the test of a document, which goes from left
to right and only as far as needed, comes to one that has none.
-/

namespace DocGate

namespace FilterDocument

/-! ## Conditions on a field -/

/-- Whether the value at a path equals an operand. -/
def fieldEquals (document : Document) (path : String) (operand : Bson) : Bool :=
  (Filter.fieldValue document path).matchesAny (.ofBson operand)

/-- Whether the order of the value at a path and an operand is accepted. -/
def fieldCompares (document : Document) (path : String) (accepts : Ordering → Bool)
    (operand : Bson) : Bool :=
  (Filter.fieldValue document path).comparesAny accepts (.ofBson operand)

/-- Whether the value at a path equals an element of an operand. -/
def fieldAmong (document : Document) (path : String) : Bson → Bool
  | .array items => items.any (fieldEquals document path)
  | _ => false

/-- Whether there is a value at a path. -/
def fieldPresent (document : Document) (path : String) : Bool :=
  (document.lookup? (Text.pathKeys path)).isSome

/-- Whether a comparison of the value at a path with an operand holds. -/
def comparisonHolds (document : Document) (path operator : String) (operand : Bson) : Bool :=
  match operator with
  | "$eq" => fieldEquals document path operand
  | "$ne" => !fieldEquals document path operand
  | "$gt" => fieldCompares document path Ordering.isGT operand
  | "$gte" => fieldCompares document path Ordering.isGE operand
  | "$lt" => fieldCompares document path Ordering.isLT operand
  | "$lte" => fieldCompares document path Ordering.isLE operand
  | "$in" => fieldAmong document path operand
  | "$nin" => !fieldAmong document path operand
  | _ => false

/-! ## The reading -/

mutual

/-- Whether all entries of a filter document hold of a document. -/
def entriesHold (document : Document) : List (String × Bson) → Bool
  | [] => true
  | (key, value) :: rest =>
    (if key = "$and" then (operandOutcomes document value).all id
      else if key = "$or" then (operandOutcomes document value).any id
      else if key = "$nor" then !(operandOutcomes document value).any id
      else conditionHolds document key value) && entriesHold document rest
termination_by structural entries => entries

/-- Which of the filters in the operand of a logical operator hold. -/
def operandOutcomes (document : Document) : Bson → List Bool
  | .array items => itemOutcomes document items
  | _ => []
termination_by structural operand => operand

/-- Which of some filters hold. -/
def itemOutcomes (document : Document) : List Bson → List Bool
  | [] => []
  | item :: rest => itemHolds document item :: itemOutcomes document rest
termination_by structural items => items

/-- Whether a filter in the operand of a logical operator holds. -/
def itemHolds (document : Document) : Bson → Bool
  | .document entries => entriesHold document entries
  | _ => false
termination_by structural item => item

/-- Whether a condition on the value at a path holds. -/
def conditionHolds (document : Document) (path : String) : Bson → Bool
  | .document entries =>
    if Filter.hasOperator entries then operatorsHold document path entries
    else fieldEquals document path (.document entries)
  | value => fieldEquals document path value
termination_by structural value => value

/-- Whether all operators of a condition on the value at a path hold. -/
def operatorsHold (document : Document) (path : String) : List (String × Bson) → Bool
  | [] => true
  | (operator, operand) :: rest =>
    (if operator = "$exists" then fieldPresent document path == Filter.asksPresence operand
      else if operator = "$not" then !conditionHolds document path operand
      else comparisonHolds document path operator operand) && operatorsHold document path rest
termination_by structural operators => operators

end

/-! ## Membership tests -/

/-- Whether a value is a list. -/
def isArray : Bson → Bool
  | .array _ => true
  | _ => false

theorem exists_of_isArray {value : Bson} (h : isArray value = true) :
    ∃ items, value = .array items := by
  cases value with
  | array items => exact ⟨items, rfl⟩
  | _ => cases h

mutual

/-- Whether every membership test in a filter document has a list. -/
def entriesListed : List (String × Bson) → Bool
  | [] => true
  | (key, value) :: rest =>
    (if key = "$and" ∨ key = "$or" ∨ key = "$nor" then operandListed value
      else conditionListed value) && entriesListed rest
termination_by structural entries => entries

/-- Whether every membership test in the operand of a logical operator has a
list. -/
def operandListed : Bson → Bool
  | .array items => itemsListed items
  | _ => true
termination_by structural operand => operand

/-- Whether every membership test in some filters has a list. -/
def itemsListed : List Bson → Bool
  | [] => true
  | item :: rest => itemListed item && itemsListed rest
termination_by structural items => items

/-- Whether every membership test in a filter of an operand has a list. -/
def itemListed : Bson → Bool
  | .document entries => entriesListed entries
  | _ => true
termination_by structural item => item

/-- Whether every membership test in a condition has a list. -/
def conditionListed : Bson → Bool
  | .document entries => !Filter.hasOperator entries || operatorsListed entries
  | _ => true
termination_by structural value => value

/-- Whether every membership test among some operators has a list. -/
def operatorsListed : List (String × Bson) → Bool
  | [] => true
  | (operator, operand) :: rest =>
    (if operator = "$not" then conditionListed operand
      else if operator = "$in" ∨ operator = "$nin" then isArray operand
      else true) && operatorsListed rest
termination_by structural operators => operators

end

/-! ## Membership tests that are come to -/

mutual

/-- Whether the test of the entries of a filter document comes to a membership test
without a list.  It goes on to the next entry where one holds. -/
def entriesStumble (document : Document) : List (String × Bson) → Bool
  | [] => false
  | (key, value) :: rest =>
    (if key = "$and" then operandStumbles document true value
      else if key = "$or" ∨ key = "$nor" then operandStumbles document false value
      else conditionStumbles document key value) ||
        entriesHold document [(key, value)] && entriesStumble document rest
termination_by structural entries => entries

/-- Whether the test of the operand of a logical operator comes to a membership test
without a list.  It goes on to the next filter where one has the outcome `onward`. -/
def operandStumbles (document : Document) (onward : Bool) : Bson → Bool
  | .array items => itemsStumble document onward items
  | _ => false
termination_by structural operand => operand

/-- Whether the test of some filters comes to a membership test without a list. -/
def itemsStumble (document : Document) (onward : Bool) : List Bson → Bool
  | [] => false
  | item :: rest =>
    itemStumbles document item ||
      itemHolds document item == onward && itemsStumble document onward rest
termination_by structural items => items

/-- Whether the test of a filter in the operand of a logical operator comes to a
membership test without a list. -/
def itemStumbles (document : Document) : Bson → Bool
  | .document entries => entriesStumble document entries
  | _ => false
termination_by structural item => item

/-- Whether the test of a condition on the value at a path comes to a membership test
without a list. -/
def conditionStumbles (document : Document) (path : String) : Bson → Bool
  | .document entries => Filter.hasOperator entries && operatorsStumble document path entries
  | _ => false
termination_by structural value => value

/-- Whether the test of the operators of a condition comes to a membership test without
a list.  It goes on to the next operator where one holds. -/
def operatorsStumble (document : Document) (path : String) : List (String × Bson) → Bool
  | [] => false
  | (operator, operand) :: rest =>
    (if operator = "$not" then conditionStumbles document path operand
      else if operator = "$in" ∨ operator = "$nin" then !isArray operand
      else false) ||
        operatorsHold document path [(operator, operand)] && operatorsStumble document path rest
termination_by structural operators => operators

end

end FilterDocument

end DocGate
