import DocGate.Assoc
import DocGate.DateTime
import DocGate.Numeric.Double
import DocGate.ObjectId

/-!
# Stored values

`Bson` is a value of the document store and `Document` a stored document:
named values in order.  Integers have 32 or 64 bits and are different values
even when they denote the same number.

`Bson.same` is the store's own equality, which decides whether two documents
have the same identifier: types must agree, numbers of floating point compare
by value, and the order of a document's entries does not matter.  Equality itself
is decided by `Bson.isEqual`.
-/

namespace DocGate

/-- A value of the document store. -/
inductive Bson
  | null
  | bool (value : Bool)
  | string (text : String)
  | int32 (value : Int32)
  | int64 (value : Int64)
  | double (value : Double)
  | objectId (id : ObjectId)
  | dateTime (date : DateTime)
  | timestamp (time increment : UInt32)
  | regex (pattern options : String)
  | binary (bytes : List UInt8)
  | code (source : String)
  | symbol (text : String)
  | minKey
  | maxKey
  | undefined
  | array (items : List Bson)
  | document (entries : List (String × Bson))

/-- A stored document: its entries in order. -/
abbrev Document := Assoc Bson

namespace Bson

/-- The integer in the narrower of the two integer types, if it fits either. -/
def ofInt? (n : Int) : Option Bson :=
  if -2 ^ 31 ≤ n ∧ n < 2 ^ 31 then some (.int32 (Int32.ofInt n))
  else if -2 ^ 63 ≤ n ∧ n < 2 ^ 63 then some (.int64 (Int64.ofInt n))
  else none

/-! ## Equality of values -/

mutual

/-- Whether two values are equal in all their parts. -/
def isEqual : Bson → Bson → Bool
  | .null, .null => true
  | .bool a, .bool b => a == b
  | .string a, .string b => a == b
  | .int32 a, .int32 b => a == b
  | .int64 a, .int64 b => a == b
  | .double a, .double b => a == b
  | .objectId a, .objectId b => a == b
  | .dateTime a, .dateTime b => a == b
  | .timestamp a i, .timestamp b j => a == b && i == j
  | .regex a o, .regex b p => a == b && o == p
  | .binary a, .binary b => a == b
  | .code a, .code b => a == b
  | .symbol a, .symbol b => a == b
  | .minKey, .minKey => true
  | .maxKey, .maxKey => true
  | .undefined, .undefined => true
  | .array as, .array bs => areEqual as bs
  | .document as, .document bs => entriesEqual as bs
  | _, _ => false

/-- Whether two lists of values are equal. -/
def areEqual : List Bson → List Bson → Bool
  | [], [] => true
  | a :: as, b :: bs => isEqual a b && areEqual as bs
  | _, _ => false

/-- Whether two lists of entries are equal. -/
def entriesEqual : List (String × Bson) → List (String × Bson) → Bool
  | [], [] => true
  | (key, a) :: as, (other, b) :: bs => key == other && isEqual a b && entriesEqual as bs
  | _, _ => false

end

mutual

/-- The comparison by parts decides equality. -/
theorem isEqual_iff : ∀ a b : Bson, isEqual a b = true ↔ a = b
  | .array as, b => by
    cases b with
    | array bs => rw [isEqual, areEqual_iff as bs, array.injEq]
    | _ => exact iff_of_false nofun nofun
  | .document as, b => by
    cases b with
    | document bs => rw [isEqual, entriesEqual_iff as bs, document.injEq]
    | _ => exact iff_of_false nofun nofun
  | .null, b | .minKey, b | .maxKey, b | .undefined, b | .bool _, b | .string _, b
  | .int32 _, b | .int64 _, b | .double _, b | .objectId _, b | .dateTime _, b
  | .timestamp _ _, b | .regex _ _, b | .binary _, b | .code _, b | .symbol _, b => by
    cases b <;> simp [isEqual]

theorem areEqual_iff : ∀ as bs : List Bson, areEqual as bs = true ↔ as = bs
  | [], [] => iff_of_true rfl rfl
  | [], _ :: _ => iff_of_false nofun nofun
  | _ :: _, [] => iff_of_false nofun nofun
  | a :: as, b :: bs => by
    rw [areEqual, Bool.and_eq_true, isEqual_iff a b, areEqual_iff as bs, List.cons.injEq]

theorem entriesEqual_iff : ∀ as bs : List (String × Bson), entriesEqual as bs = true ↔ as = bs
  | [], [] => iff_of_true rfl rfl
  | [], _ :: _ => iff_of_false nofun nofun
  | _ :: _, [] => iff_of_false nofun nofun
  | (key, a) :: as, (other, b) :: bs => by
    rw [entriesEqual, Bool.and_eq_true, Bool.and_eq_true, beq_iff_eq, isEqual_iff a b,
      entriesEqual_iff as bs, List.cons.injEq, Prod.mk.injEq]

end

instance : DecidableEq Bson := fun a b => decidable_of_iff _ (isEqual_iff a b)

/-! ## The store's equality -/

mutual

/-- Whether two values are the same for the store. -/
def same : Bson → Bson → Bool
  | .null, .null => true
  | .bool a, .bool b => a == b
  | .string a, .string b => a == b
  | .int32 a, .int32 b => a == b
  | .int64 a, .int64 b => a == b
  | .double a, .double b => a.equals b
  | .objectId a, .objectId b => a == b
  | .dateTime a, .dateTime b => a == b
  | .timestamp a i, .timestamp b j => a == b && i == j
  | .regex a o, .regex b p => a == b && o == p
  | .binary a, .binary b => a == b
  | .code a, .code b => a == b
  | .symbol a, .symbol b => a == b
  | .minKey, .minKey => true
  | .maxKey, .maxKey => true
  | .undefined, .undefined => true
  | .array as, .array bs => sameItems as bs
  | .document as, .document bs => as.length == bs.length && sameEntries as bs
  | _, _ => false

/-- Whether two lists hold the same values in the same order. -/
def sameItems : List Bson → List Bson → Bool
  | [], [] => true
  | a :: as, b :: bs => same a b && sameItems as bs
  | _, _ => false

/-- Whether every entry of the first list has the same value in the second. -/
def sameEntries : List (String × Bson) → Document → Bool
  | [], _ => true
  | (key, a) :: rest, bs =>
    (match bs.get? key with
      | some b => same a b
      | none => false) && sameEntries rest bs

end

end Bson

end DocGate
