import DocGate.Filter.Basic
import DocGate.Filter.Value

/-!
# Testing documents against filters

`Filter.holds` tests one document.  A path leads through documents only, and a
field without a value counts as null in a comparison.  Conditions are tested
from left to right and only as far as needed; the one failure that is left, a
membership test without a list, shows when the test is reached.
-/

namespace DocGate

/-- The value of a document at a path. -/
def Document.lookup? (document : Document) : List String → Option Bson
  | [] => none
  | [key] => document.get? key
  | key :: next :: rest =>
    match document.get? key with
    | some (.document inner) => Document.lookup? inner (next :: rest)
    | _ => none

namespace Filter

/-- The value of a field as a filter sees it; without a value it is null. -/
def fieldValue (document : Document) (path : String) : FilterValue :=
  match document.lookup? (Text.pathKeys path) with
  | some value => .ofBson value
  | none => .null

/-- Whether a field equals an element of the operand of a membership test. -/
def isAmong (value : FilterValue) : Bson → Except StoreFault Bool
  | .array items => .ok (items.any fun item => value.matchesAny (.ofBson item))
  | _ => .error .membershipOperand

/-- Whether a field with the given value compares with an operand. -/
def compares (value : FilterValue) (operand : Bson) : Comparison → Except StoreFault Bool
  | .equal => .ok (value.matchesAny (.ofBson operand))
  | .notEqual => .ok (!value.matchesAny (.ofBson operand))
  | .greater => .ok (value.comparesAny Ordering.isGT (.ofBson operand))
  | .greaterOrEqual => .ok (value.comparesAny Ordering.isGE (.ofBson operand))
  | .less => .ok (value.comparesAny Ordering.isLT (.ofBson operand))
  | .lessOrEqual => .ok (value.comparesAny Ordering.isLE (.ofBson operand))
  | .among => isAmong value operand
  | .notAmong => (isAmong value operand).map not

mutual

/-- Whether a condition holds of a document. -/
def holds (document : Document) : Filter → Except StoreFault Bool
  | .conj parts => allHold document parts
  | .disj parts => anyHolds document parts
  | .nor parts => (anyHolds document parts).map not
  | .negation part => (holds document part).map not
  | .presence path present =>
    .ok ((document.lookup? (Text.pathKeys path)).isSome == present)
  | .field path comparison operand => compares (fieldValue document path) operand comparison

/-- Whether all conditions hold, tested up to the first that does not. -/
def allHold (document : Document) : List Filter → Except StoreFault Bool
  | [] => .ok true
  | part :: rest =>
    match holds document part with
    | .ok true => allHold document rest
    | .ok false => .ok false
    | .error fault => .error fault

/-- Whether some condition holds, tested up to the first that does. -/
def anyHolds (document : Document) : List Filter → Except StoreFault Bool
  | [] => .ok false
  | part :: rest =>
    match holds document part with
    | .ok true => .ok true
    | .ok false => anyHolds document rest
    | .error fault => .error fault

end

/-- The documents of which a condition holds, in order. -/
def select (filter : Filter) : List Document → Except StoreFault (List Document)
  | [] => .ok []
  | document :: rest =>
    match filter.holds document with
    | .error fault => .error fault
    | .ok selected =>
      match filter.select rest with
      | .error fault => .error fault
      | .ok others => .ok (if selected then document :: others else others)

end Filter

end DocGate
