import DocGate.Bson.Basic
import DocGate.Error
import DocGate.Projection.Basic
import DocGate.Text.Split

/-!
# Filters

A filter document says which documents a read selects.  `Filter.ofDocument`
turns it into a tree of conditions, so that the store can test documents
against it.

At the top of a filter document stand the logical operators `$and`, `$or` and
`$nor` over lists of filters, and conditions on fields.  A condition without an
operator is an equality; one with operators is the conjunction of them.
Anything else is beyond the store, and the first such thing in the order of the
document is reported.
-/

namespace DocGate

/-- The comparisons of a field with an operand. -/
inductive Comparison
  | equal
  | notEqual
  | greater
  | greaterOrEqual
  | less
  | lessOrEqual
  /-- The value equals an element of the operand. -/
  | among
  /-- The value equals no element of the operand. -/
  | notAmong
  deriving DecidableEq, Repr

/-- The comparison that an operator stands for. -/
def Comparison.ofOperator? (operator : String) : Option Comparison :=
  Assoc.get? [("$eq", equal), ("$ne", notEqual), ("$gt", greater), ("$gte", greaterOrEqual),
    ("$lt", less), ("$lte", lessOrEqual), ("$in", among), ("$nin", notAmong)] operator

/-- A condition on documents. -/
inductive Filter
  /-- All conditions hold. -/
  | conj (parts : List Filter)
  /-- One of the conditions holds. -/
  | disj (parts : List Filter)
  /-- None of the conditions holds. -/
  | nor (parts : List Filter)
  /-- The condition does not hold. -/
  | negation (part : Filter)
  /-- There is a value at a path, or there is none. -/
  | presence (path : String) (present : Bool)
  /-- The value at a path compares with an operand. -/
  | field (path : String) (comparison : Comparison) (operand : Bson)

namespace Filter

/-- The conjunction of some conditions; a single one is itself. -/
def collapse : List Filter → Filter
  | [part] => part
  | parts => .conj parts

/-- Whether the operand of `$exists` asks for presence. -/
def asksPresence : Bson → Bool
  | .null => false
  | value => (Projection.marker? value).getD true

/-- Whether a document is a condition made of operators. -/
def hasOperator (entries : Document) : Bool :=
  entries.any fun entry => Text.startsWithDollar entry.1

mutual

/-- The conditions for the entries of a filter document. -/
def ofEntries : List (String × Bson) → Except StoreFault (List Filter)
  | [] => .ok []
  | (key, value) :: rest =>
    let first : Except StoreFault Filter :=
      if key = "$and" then (ofOperand key value).map .conj
      else if key = "$or" then (ofOperand key value).map .disj
      else if key = "$nor" then (ofOperand key value).map .nor
      else if Text.startsWithDollar key then .error (.unsupportedOperator key)
      else ofCondition key value
    match first with
    | .error fault => .error fault
    | .ok part =>
      match ofEntries rest with
      | .error fault => .error fault
      | .ok parts => .ok (part :: parts)
termination_by structural entries => entries

/-- The conditions in the operand of a logical operator. -/
def ofOperand (operator : String) : Bson → Except StoreFault (List Filter)
  | .array items => ofItems operator items
  | _ => .error (.notArray operator)
termination_by structural operand => operand

/-- The conditions that the elements of an operand are. -/
def ofItems (operator : String) : List Bson → Except StoreFault (List Filter)
  | [] => .ok []
  | item :: rest =>
    match ofItem operator item with
    | .error fault => .error fault
    | .ok part =>
      match ofItems operator rest with
      | .error fault => .error fault
      | .ok parts => .ok (part :: parts)
termination_by structural items => items

/-- The condition that an element of an operand is. -/
def ofItem (operator : String) : Bson → Except StoreFault Filter
  | .document entries => (ofEntries entries).map collapse
  | _ => .error (.notFilters operator)
termination_by structural item => item

/-- The condition on the value at a path. -/
def ofCondition (path : String) : Bson → Except StoreFault Filter
  | .document entries =>
    if hasOperator entries then (ofOperators path entries).map collapse
    else .ok (.field path .equal (.document entries))
  | value => .ok (.field path .equal value)
termination_by structural value => value

/-- The conditions for the operators of a condition on the value at a path. -/
def ofOperators (path : String) : List (String × Bson) → Except StoreFault (List Filter)
  | [] => .ok []
  | (operator, operand) :: rest =>
    let first : Except StoreFault Filter :=
      if operator = "$exists" then .ok (.presence path (asksPresence operand))
      else if operator = "$not" then (ofCondition path operand).map .negation
      else
        match Comparison.ofOperator? operator with
        | some comparison => .ok (.field path comparison operand)
        | none => .error (.unsupportedOperator operator)
    match first with
    | .error fault => .error fault
    | .ok part =>
      match ofOperators path rest with
      | .error fault => .error fault
      | .ok parts => .ok (part :: parts)
termination_by structural operators => operators

end

/-- The condition that a filter document is. -/
def ofDocument (document : Document) : Except StoreFault Filter :=
  (ofEntries document).map collapse

end Filter

end DocGate
