import DocGate.Proofs.Filter.Fields

/-!
# Inclusive comparisons

Equality and order of the values that a filter compares are two functions, and they
come to an array in two ways.  Here they are tied together.

* `FilterValue.compare?_beq_eq`: the order finds two values equal where equality does
  and the values are of a kind that has an order.
* `FilterValue.comparesAny_inclusive` carries this over to fields, with an array or
  without: an inclusive comparison is the strict one or equality, the latter for
  operands that have an order only.
* `FilterDocument.inclusive_comparisons` says what this means for filter documents.
  Null equals null and a field without a value, but it has no order, so no inclusive
  comparison with null finds anything.
-/

namespace DocGate

namespace FilterValue

/-- Whether a value is of a kind that has an order. -/
def isOrdered : FilterValue → Bool
  | .bool _ => true
  | .number _ => true
  | .date _ => true
  | .id _ => true
  | .text _ => true
  | _ => false

/-- What has no order compares with nothing. -/
theorem compare?_of_not_ordered {operand : FilterValue} (h : operand.isOrdered = false)
    (value : FilterValue) : value.compare? operand = none := by
  cases operand with
  | null => cases value <;> rfl
  | array items => cases value <;> rfl
  | document entries => cases value <;> rfl
  | _ => cases h

/-- The order finds two values equal where equality does, if they have an order. -/
theorem compare?_beq_eq (value operand : FilterValue) :
    (value.compare? operand == some .eq) = (operand.isOrdered && value.equals operand) := by
  cases operand with
  | bool b =>
    cases value with
    | bool a => cases a <;> cases b <;> rfl
    | _ => rfl
  | number b =>
    cases value with
    | number a => exact (Double.equals_eq_compare? a b).symm
    | _ => rfl
  | date b =>
    cases value with
    | date a =>
      show (some (a.order b) == some .eq) = (a == b)
      rw [Bool.eq_iff_iff, beq_iff_eq, beq_iff_eq, Option.some.injEq, DateTime.order_eq_eq_iff]
    | _ => rfl
  | id b =>
    cases value with
    | id a =>
      show (some (a.order b) == some .eq) = (a == b)
      rw [Bool.eq_iff_iff, beq_iff_eq, beq_iff_eq, Option.some.injEq, ObjectId.order_eq_eq_iff]
    | _ => rfl
  | text b =>
    cases value with
    | text a =>
      show (some (compare a b) == some .eq) = (a == b)
      rw [Bool.eq_iff_iff, beq_iff_eq, beq_iff_eq, Option.some.injEq,
        Std.LawfulEqCmp.compare_eq_iff_eq]
    | _ => rfl
  | _ =>
    rw [compare?_of_not_ordered rfl value]
    rfl

/-! ## Fields -/

/-- The values that a comparison of a field looks at: the elements of an array, and of
anything else the value itself. -/
def compared : FilterValue → List FilterValue
  | .array items => items
  | value => [value]

theorem comparesAny_eq_any (accepts : Ordering → Bool) (value operand : FilterValue) :
    value.comparesAny accepts operand =
      value.compared.any fun item => (item.compare? operand).any accepts := by
  cases value with
  | array items => cases operand <;> rfl
  | _ => cases operand <;> exact (Bool.or_false _).symm

/-- For an operand with an order, equality looks at the same values. -/
theorem matchesAny_of_ordered {operand : FilterValue} (h : operand.isOrdered = true)
    (value : FilterValue) :
    value.matchesAny operand = value.compared.any fun item => item.equals operand := by
  cases value with
  | array items =>
    cases operand with
    | array others => cases h
    | _ => rfl
  | _ => cases operand <;> exact (Bool.or_false _).symm

/-- No order is found for an operand that has none. -/
theorem comparesAny_of_not_ordered {operand : FilterValue} (h : operand.isOrdered = false)
    (accepts : Ordering → Bool) (value : FilterValue) :
    value.comparesAny accepts operand = false := by
  rw [comparesAny_eq_any, List.any_eq_false]
  intro item _
  rw [compare?_of_not_ordered h]
  exact Bool.false_ne_true

/-- An inclusive comparison of a field is the strict one or equality, if the operand has
an order. -/
theorem comparesAny_inclusive {inclusive strict : Ordering → Bool}
    (h : ∀ order, inclusive order = (strict order || order == .eq)) {operand : FilterValue}
    (hordered : operand.isOrdered = true) (value : FilterValue) :
    value.comparesAny inclusive operand =
      (value.comparesAny strict operand || value.matchesAny operand) := by
  have hitem : ∀ item : FilterValue, (item.compare? operand).any inclusive =
      ((item.compare? operand).any strict || item.equals operand) := by
    intro item
    have hequal := compare?_beq_eq item operand
    rw [hordered, Bool.true_and] at hequal
    rw [← hequal]
    cases item.compare? operand with
    | none => rfl
    | some order => exact h order
  rw [comparesAny_eq_any, comparesAny_eq_any, matchesAny_of_ordered hordered, Bool.eq_iff_iff]
  simp only [hitem, List.any_eq_true, Bool.or_eq_true, and_or_left, exists_or]

end FilterValue

namespace Bson

/-- Whether a value is of a kind that filters order: truth values, numbers, dates,
identifiers and texts. -/
def isOrdered : Bson → Bool
  | .bool _ => true
  | .int32 _ => true
  | .int64 _ => true
  | .double _ => true
  | .dateTime _ => true
  | .objectId _ => true
  | .string _ => true
  | _ => false

theorem isOrdered_ofBson (value : Bson) :
    (FilterValue.ofBson value).isOrdered = value.isOrdered := by
  cases value <;> rfl

end Bson

namespace FilterDocument

variable {path : String} {document : Document}

theorem fieldCompares_of_not_ordered {operand : Bson} (h : operand.isOrdered = false)
    (accepts : Ordering → Bool) : fieldCompares document path accepts operand = false := by
  rw [← Bson.isOrdered_ofBson] at h
  exact FilterValue.comparesAny_of_not_ordered h accepts _

/-- An inclusive comparison of the value at a path is the strict one or equality, if the
operand has an order. -/
theorem fieldCompares_inclusive {inclusive strict : Ordering → Bool}
    (h : ∀ order, inclusive order = (strict order || order == .eq)) {operand : Bson}
    (hordered : operand.isOrdered = true) :
    fieldCompares document path inclusive operand =
      (fieldCompares document path strict operand || fieldEquals document path operand) := by
  rw [← Bson.isOrdered_ofBson] at hordered
  exact FilterValue.comparesAny_inclusive h hordered _

/-! ## Filter documents -/

/-- Whether a filter document finds a document. -/
def Finds (filter document : Document) : Prop :=
  test filter document = .ok true

/-- The filter document with one operator on the value at a path. -/
def single (path operator : String) (operand : Bson) : Document :=
  [(path, .document [(operator, operand)])]

/-- An operator finds what its comparison holds of, at a path that can be one of a
field. -/
theorem finds_single_iff {operator : String} {comparison : Comparison} {operand : Bson}
    {outcome : Bool} (hoperator : Comparison.ofOperator? operator = some comparison)
    (houtcome : Filter.compares (Filter.fieldValue document path) operand comparison =
      .ok outcome) :
    Finds (single path operator operand) document ↔
      Text.startsWithDollar path = false ∧ outcome = true := by
  cases hplain : Text.startsWithDollar path with
  | false =>
    have htest : test (single path operator operand) document = .ok outcome :=
      (test_comparison hplain hoperator operand).trans houtcome
    rw [Finds, htest, Except.ok.injEq]
    exact (and_iff_right rfl).symm
  | true =>
    refine iff_of_false ?_ (fun h => Bool.noConfusion h.1)
    intro hfinds
    rw [Finds, test] at hfinds
    split at hfinds
    · cases hfinds
    · rename_i condition hcondition
      obtain ⟨parts, hparts, -⟩ := Filter.map_eq_ok_iff.1 hcondition
      obtain ⟨part, -, hpart, -⟩ := Filter.ofEntries_cons_eq_ok_iff.1 hparts
      rcases Filter.ofEntry_cases hpart with ⟨filters, hlogical, -⟩ | ⟨hplain', -⟩
      · cases hlogical
      · rw [hplain] at hplain'
        cases hplain'

theorem finds_eq_iff {operand : Bson} :
    Finds (single path "$eq" operand) document ↔
      Text.startsWithDollar path = false ∧ fieldEquals document path operand = true := by
  have heq : Comparison.ofOperator? "$eq" = some .equal := rfl
  exact finds_single_iff heq rfl

/-- Null is found where there is no value, or null or a value without a comparison, or an
array with such an element. -/
theorem finds_null_iff :
    Finds (single path "$eq" .null) document ↔
      Text.startsWithDollar path = false ∧
        (nullAt document path = true ∨ someAt document path Bson.isUncompared = true) := by
  rw [finds_eq_iff, fieldEquals_null, Bool.or_eq_true]

/-- Whether an inclusive operator finds a document just where the strict operator or
equality does. -/
def Includes (inclusive strict path : String) (operand : Bson) (document : Document) : Prop :=
  Finds (single path inclusive operand) document ↔
    Finds (single path strict operand) document ∨ Finds (single path "$eq" operand) document

/-- An inclusive operator does so unless its operand has no order and equals the field. -/
theorem includes_iff {inclusive strict : String} {accepts acceptsStrictly : Ordering → Bool}
    {operand : Bson}
    (haccepts : ∀ order, accepts order = (acceptsStrictly order || order == .eq))
    (hinclusive : Finds (single path inclusive operand) document ↔
      Text.startsWithDollar path = false ∧ fieldCompares document path accepts operand = true)
    (hstrict : Finds (single path strict operand) document ↔
      Text.startsWithDollar path = false ∧
        fieldCompares document path acceptsStrictly operand = true) :
    Includes inclusive strict path operand document ↔
      operand.isOrdered = true ∨ ¬ Finds (single path "$eq" operand) document := by
  cases hordered : operand.isOrdered with
  | true =>
    refine iff_of_true ?_ (.inl rfl)
    rw [Includes, hinclusive, hstrict, finds_eq_iff, fieldCompares_inclusive haccepts hordered,
      Bool.or_eq_true, and_or_left]
  | false =>
    rw [Includes, hinclusive, hstrict, fieldCompares_of_not_ordered hordered,
      fieldCompares_of_not_ordered hordered]
    simp

/-- An inclusive comparison finds a document just where the strict one or equality does,
if its operand is a truth value, a number, a date, an identifier or a text, whatever is
at the path.  An operand of another kind has no order, so neither finds anything for it,
and they leave out what equality finds.  For null this is where there is no value, or null
or a value without a comparison, or an array with such an element. -/
theorem inclusive_comparisons (path : String) (document : Document) (operand : Bson) :
    (Includes "$gte" "$gt" path operand document ↔
      operand.isOrdered = true ∨ ¬ Finds (single path "$eq" operand) document) ∧
    (Includes "$lte" "$lt" path operand document ↔
      operand.isOrdered = true ∨ ¬ Finds (single path "$eq" operand) document) ∧
    (operand.isOrdered = false → ∀ operator ∈ ["$gt", "$gte", "$lt", "$lte"],
      ¬ Finds (single path operator operand) document) ∧
    (Finds (single path "$eq" .null) document ↔
      Text.startsWithDollar path = false ∧
        (nullAt document path = true ∨ someAt document path Bson.isUncompared = true)) := by
  have hgt : Comparison.ofOperator? "$gt" = some .greater := rfl
  have hgte : Comparison.ofOperator? "$gte" = some .greaterOrEqual := rfl
  have hlt : Comparison.ofOperator? "$lt" = some .less := rfl
  have hlte : Comparison.ofOperator? "$lte" = some .lessOrEqual := rfl
  refine ⟨?greater, ?less, ?unordered, finds_null_iff⟩
  case greater =>
    have haccepts : ∀ order : Ordering, order.isGE = (order.isGT || order == .eq) := by decide
    exact includes_iff haccepts (finds_single_iff hgte rfl) (finds_single_iff hgt rfl)
  case less =>
    have haccepts : ∀ order : Ordering, order.isLE = (order.isLT || order == .eq) := by decide
    exact includes_iff haccepts (finds_single_iff hlte rfl) (finds_single_iff hlt rfl)
  case unordered =>
    intro hordered operator hoperator
    have hnone : ∀ accepts, ¬ (Text.startsWithDollar path = false ∧
        fieldCompares document path accepts operand = true) := by
      intro accepts h
      rw [fieldCompares_of_not_ordered hordered] at h
      exact Bool.false_ne_true h.2
    simp only [List.mem_cons, List.not_mem_nil, or_false] at hoperator
    rcases hoperator with rfl | rfl | rfl | rfl
    · exact fun h => hnone _ ((finds_single_iff hgt rfl).1 h)
    · exact fun h => hnone _ ((finds_single_iff hgte rfl).1 h)
    · exact fun h => hnone _ ((finds_single_iff hlt rfl).1 h)
    · exact fun h => hnone _ ((finds_single_iff hlte rfl).1 h)

/-- One of several sizes is at most the operand, and null is found in a document without
a size by equality only. -/
theorem inclusive_comparisons_sizes :
    Includes "$lte" "$lt" "box.sizes" (.int32 3)
        [("box", .document [("sizes", .array [.int64 3, .int32 9])])] ∧
      Finds (single "box.sizes" "$eq" .null) [("box", .document [])] ∧
      ¬ Finds (single "box.sizes" "$gte" .null) [("box", .document [])] := by
  obtain ⟨-, hless, -⟩ := inclusive_comparisons "box.sizes"
    [("box", .document [("sizes", .array [.int64 3, .int32 9])])] (.int32 3)
  obtain ⟨-, -, hunordered, hnull⟩ :=
    inclusive_comparisons "box.sizes" [("box", .document [])] .null
  refine ⟨hless.2 (.inl rfl), hnull.2 ⟨by decide +kernel, .inl ?_⟩, ?_⟩
  · decide +kernel
  · exact hunordered rfl "$gte" (by decide)

/-- A document without a size equals null there, and is not found by being at least
null. -/
theorem not_includes_null : ¬ Includes "$gte" "$gt" "size" .null [("_id", .int32 1)] := by
  have hgte : test (single "size" "$gte" .null) [("_id", .int32 1)] = .ok false := rfl
  have heq : test (single "size" "$eq" .null) [("_id", .int32 1)] = .ok true := rfl
  intro h
  have hfound : test (single "size" "$gte" .null) [("_id", .int32 1)] = .ok true :=
    h.2 (.inr heq)
  rw [hgte] at hfound
  cases hfound

end FilterDocument

end DocGate
