import DocGate.Bson.Basic

/-!
# Values as a filter sees them

A filter compares values with fewer distinctions than the store makes: all
numbers are doubles, so an integer of 64 bits is rounded, the order of a
document's entries does not matter, and a value of a type that has no
comparison of its own counts as null.

Truth values, numbers, dates, identifiers and texts are ordered among
themselves; nothing else is.
-/

namespace DocGate

/-- A value as a filter sees it. -/
inductive FilterValue
  | null
  | bool (value : Bool)
  | number (value : Double)
  | date (value : DateTime)
  | id (value : ObjectId)
  | text (value : String)
  | array (items : List FilterValue)
  | document (entries : List (String × FilterValue))

namespace FilterValue

mutual

/-- A stored value as a filter sees it. -/
def ofBson : Bson → FilterValue
  | .bool value => .bool value
  | .int32 n => .number (Double.ofInt n.toInt)
  | .int64 n => .number (Double.ofInt n.toInt)
  | .double d => .number d
  | .dateTime value => .date value
  | .objectId value => .id value
  | .string value => .text value
  | .array items => .array (ofItems items)
  | .document entries => .document (ofEntries entries)
  | .null => .null
  | .timestamp _ _ => .null
  | .regex _ _ => .null
  | .binary _ => .null
  | .code _ => .null
  | .symbol _ => .null
  | .minKey => .null
  | .maxKey => .null
  | .undefined => .null

/-- The elements of an array as a filter sees them. -/
def ofItems : List Bson → List FilterValue
  | [] => []
  | item :: rest => ofBson item :: ofItems rest

/-- The entries of a document as a filter sees them. -/
def ofEntries : List (String × Bson) → List (String × FilterValue)
  | [] => []
  | (key, value) :: rest => (key, ofBson value) :: ofEntries rest

end

theorem ofItems_eq_map (items : List Bson) : ofItems items = items.map ofBson := by
  induction items with
  | nil => rfl
  | cons item rest ih =>
    rw [ofItems, ih]
    rfl

theorem any_ofItems (items : List Bson) (accepts : FilterValue → Bool) :
    (ofItems items).any accepts = items.any fun item => accepts (ofBson item) := by
  rw [ofItems_eq_map, List.any_map]
  rfl

mutual

/-- Whether two values are equal for a filter. -/
def equals : FilterValue → FilterValue → Bool
  | .null, .null => true
  | .bool a, .bool b => a == b
  | .number a, .number b => a.equals b
  | .date a, .date b => a == b
  | .id a, .id b => a == b
  | .text a, .text b => a == b
  | .array as, .array bs => equalItems as bs
  | .document as, .document bs => as.length == bs.length && equalEntries as bs
  | _, _ => false

/-- Whether two lists hold equal values in the same order. -/
def equalItems : List FilterValue → List FilterValue → Bool
  | [], [] => true
  | a :: as, b :: bs => equals a b && equalItems as bs
  | _, _ => false

/-- Whether every entry of the first list has an equal value in the second. -/
def equalEntries : List (String × FilterValue) → Assoc FilterValue → Bool
  | [], _ => true
  | (key, a) :: rest, bs =>
    (match bs.get? key with
      | some b => equals a b
      | none => false) && equalEntries rest bs

end

/-- The order of two values, if they have one. -/
def compare? : FilterValue → FilterValue → Option Ordering
  | .bool a, .bool b => some (compare a.toNat b.toNat)
  | .number a, .number b => a.compare? b
  | .date a, .date b => some (a.order b)
  | .id a, .id b => some (a.order b)
  | .text a, .text b => some (compare a b)
  | _, _ => none

/-- Whether a field with the first value equals an operand with the second.  A
field that is an array also does if one of its elements equals an operand that
is no array. -/
def matchesAny : FilterValue → FilterValue → Bool
  | .array items, .array operands => equals (.array items) (.array operands)
  | .array items, operand => items.any fun item => item.equals operand
  | value, operand => value.equals operand

/-- Whether a field with the first value stands to an operand with the second
as `accepts` says.  For a field that is an array, one of its elements has to. -/
def comparesAny (accepts : Ordering → Bool) : FilterValue → FilterValue → Bool
  | .array items, operand => items.any fun item => (item.compare? operand).any accepts
  | value, operand => (value.compare? operand).any accepts

end FilterValue

end DocGate
