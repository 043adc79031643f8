import DocGate.Proofs.Filter.Outcomes

/-!
# Fields in filters

What single conditions on a field say of a document, by the value that the document
has there.

* A field with an array.  An operand that is no array is compared with the elements,
  and an array with the array as a whole (`Bson.arrayMatches`).  The elements are
  never compared with an array, so arrays of arrays are not searched
  (`FilterDocument.equality_of_array`).
* The operand null.  It matches null and a field without a value, and besides all
  values of the types that a filter does not tell apart
  (`FilterDocument.null_matches`).
-/

namespace DocGate

namespace Bson

/-- Whether two values are equal for a filter. -/
def filterEquals (value operand : Bson) : Bool :=
  (FilterValue.ofBson value).equals (.ofBson operand)

/-! ## Arrays and their elements -/

/-- Whether a field with an array matches an operand: an array as a whole, and
anything else by one of the elements. -/
def arrayMatches (items : List Bson) (operand : Bson) : Bool :=
  if FilterDocument.isArray operand then (array items).filterEquals operand
  else items.any fun item => item.filterEquals operand

/-- Whether an array as a whole or one of its elements equals an operand. -/
def equalsOrContains (items : List Bson) (operand : Bson) : Bool :=
  (array items).filterEquals operand || items.any fun item => item.filterEquals operand

theorem matchesAny_array (items : List Bson) (operand : Bson) :
    (FilterValue.ofBson (.array items)).matchesAny (.ofBson operand) =
      arrayMatches items operand := by
  have hitems : (FilterValue.ofItems items).any (fun item => item.equals (.ofBson operand)) =
      items.any fun item => item.filterEquals operand :=
    FilterValue.any_ofItems items fun item => item.equals (.ofBson operand)
  rw [arrayMatches, ← hitems]
  cases operand <;> rfl

/-- An array equals nothing but arrays. -/
theorem filterEquals_array_of_not_array {items : List Bson} {operand : Bson}
    (h : FilterDocument.isArray operand = false) : (array items).filterEquals operand = false := by
  cases operand with
  | array others => cases h
  | _ => rfl

/-- Besides what it matches, a field with an array has elements that are equal to an
operand that is an array. -/
theorem equalsOrContains_eq_true_iff {items : List Bson} {operand : Bson} :
    equalsOrContains items operand = true ↔
      arrayMatches items operand = true ∨
        FilterDocument.isArray operand = true ∧
          ∃ item ∈ items, item.filterEquals operand = true := by
  rw [arrayMatches, equalsOrContains, Bool.or_eq_true, ← List.any_eq_true]
  cases harray : FilterDocument.isArray operand with
  | false => simp [filterEquals_array_of_not_array harray]
  | true => simp

/-- Both tests agree unless an element equals an operand that is an array and the whole
does not. -/
theorem arrayMatches_eq_equalsOrContains_iff {items : List Bson} {operand : Bson} :
    arrayMatches items operand = equalsOrContains items operand ↔
      (FilterDocument.isArray operand = true →
        (∃ item ∈ items, item.filterEquals operand = true) →
          (array items).filterEquals operand = true) := by
  rw [arrayMatches, equalsOrContains, ← List.any_eq_true]
  cases harray : FilterDocument.isArray operand with
  | false => simp [filterEquals_array_of_not_array harray]
  | true =>
    cases (array items).filterEquals operand with
    | true => simp
    | false => simp

/-! ## Null -/

/-- Whether a value is null. -/
def isNull : Bson → Bool
  | .null => true
  | _ => false

/-- Whether a value is of a type that a filter has no comparison for. -/
def isUncompared : Bson → Bool
  | .timestamp _ _ => true
  | .regex _ _ => true
  | .binary _ => true
  | .code _ => true
  | .symbol _ => true
  | .minKey => true
  | .maxKey => true
  | .undefined => true
  | _ => false

theorem filterEquals_null (value : Bson) :
    value.filterEquals .null = (value.isNull || value.isUncompared) := by
  cases value <;> rfl

/-- A value without a comparison is taken for null. -/
theorem ofBson_of_isUncompared {value : Bson} (h : value.isUncompared = true) :
    FilterValue.ofBson value = .null := by
  cases value <;> first | rfl | cases h

theorem filterEquals_of_isUncompared {value : Bson} (h : value.isUncompared = true)
    (other : Bson) : value.filterEquals other = (other.isNull || other.isUncompared) := by
  rw [filterEquals, ofBson_of_isUncompared h]
  cases other <;> rfl

end Bson

namespace FilterDocument

variable {path : String} {document : Document}

/-! ## Tests of a document -/

/-- What a filter document says of a document in the store. -/
def test (filter document : Document) : Except StoreFault Bool :=
  match Filter.ofDocument filter with
  | .error fault => .error fault
  | .ok condition => condition.holds document

/-- A field with one comparison. -/
theorem test_comparison {operator : String} {comparison : Comparison}
    (hplain : Text.startsWithDollar path = false)
    (h : Comparison.ofOperator? operator = some comparison) (operand : Bson) :
    test [(path, .document [(operator, operand)])] document =
      Filter.compares (Filter.fieldValue document path) operand comparison := by
  rw [test, Filter.ofDocument_comparison hplain h]
  rfl

theorem test_eq (hplain : Text.startsWithDollar path = false) (operand : Bson) :
    test [(path, .document [("$eq", operand)])] document =
      .ok (fieldEquals document path operand) := by
  have hequal : Comparison.ofOperator? "$eq" = some .equal := rfl
  exact test_comparison hplain hequal operand

theorem test_in (hplain : Text.startsWithDollar path = false) (values : List Bson) :
    test [(path, .document [("$in", .array values)])] document =
      .ok (values.any (fieldEquals document path)) := by
  have hamong : Comparison.ofOperator? "$in" = some .among := rfl
  exact test_comparison hplain hamong (.array values)

/-- A field with a value that is compared as a whole. -/
theorem test_value {value : Bson} (hplain : Text.startsWithDollar path = false)
    (h : ∀ entries, value = .document entries → Filter.hasOperator entries = false) :
    test [(path, value)] document = .ok (fieldEquals document path value) := by
  rw [test, Filter.ofDocument_value hplain h]
  rfl

/-! ## Fields with an array -/

theorem fieldEquals_array {items : List Bson}
    (hvalue : document.lookup? (Text.pathKeys path) = some (.array items)) (operand : Bson) :
    fieldEquals document path operand = Bson.arrayMatches items operand := by
  rw [fieldEquals, Filter.fieldValue, hvalue]
  exact Bson.matchesAny_array items operand

/-- A field with an array equals an operand that is no array if one of its elements
does, and an array if it does as a whole; and it is among some values if it equals one
of them.  The test of the whole and of the elements together differs from this just
where an operand is an array that an element equals and the whole does not, and for
membership where besides no other value makes up for it. -/
theorem equality_of_array (path : String) (hplain : Text.startsWithDollar path = false)
    (document : Document) (items : List Bson)
    (hvalue : document.lookup? (Text.pathKeys path) = some (.array items)) :
    (∀ operand,
      test [(path, .document [("$eq", operand)])] document =
        .ok (Bson.arrayMatches items operand) ∧
      (test [(path, .document [("$eq", operand)])] document =
          .ok (Bson.equalsOrContains items operand) ↔
        (isArray operand = true → (∃ item ∈ items, item.filterEquals operand = true) →
          (Bson.array items).filterEquals operand = true))) ∧
    ∀ values,
      test [(path, .document [("$in", .array values)])] document =
        .ok (values.any (Bson.arrayMatches items)) ∧
      (test [(path, .document [("$in", .array values)])] document =
          .ok (values.any (Bson.equalsOrContains items)) ↔
        ((∃ value ∈ values, isArray value = true ∧
            ∃ item ∈ items, item.filterEquals value = true) →
          ∃ value ∈ values, Bson.arrayMatches items value = true)) := by
  have hequals := fieldEquals_array hvalue
  refine ⟨fun operand => ?_, fun values => ?_⟩
  · rw [test_eq hplain, hequals]
    refine ⟨rfl, ?_⟩
    rw [Except.ok.injEq]
    exact Bson.arrayMatches_eq_equalsOrContains_iff
  · have hany : values.any (fieldEquals document path) =
        values.any (Bson.arrayMatches items) :=
      List.any_congr rfl fun value => hequals value
    rw [test_in hplain, hany]
    refine ⟨rfl, ?_⟩
    rw [Except.ok.injEq, Bool.eq_iff_iff, List.any_eq_true, List.any_eq_true]
    simp only [Bson.equalsOrContains_eq_true_iff, and_or_left, exists_or]
    exact ⟨fun h hcontained => h.2 (.inr hcontained), fun h => ⟨.inl, fun hsome => hsome.elim id h⟩⟩

/-- A field with a text and a list of one text in it: the text is found, and so is the
list among two values, although as an element it is not. -/
theorem equality_of_array_tags :
    test [("meta.tags", .document [("$eq", .string "a")])]
        [("meta", .document [("tags", .array [.string "a", .array [.string "b"]])])] = .ok true ∧
      test [("meta.tags", .document [("$in", .array [.array [.string "b"], .string "a"])])]
        [("meta", .document [("tags", .array [.string "a", .array [.string "b"]])])] = .ok true := by
  obtain ⟨heq, hin⟩ := equality_of_array "meta.tags" (by decide +kernel)
    [("meta", .document [("tags", .array [.string "a", .array [.string "b"]])])]
    [.string "a", .array [.string "b"]] rfl
  rw [(heq (.string "a")).1, (hin [.array [.string "b"], .string "a"]).1]
  exact ⟨rfl, rfl⟩

/-- A list of numbers is an element of the field, and the field does not match it. -/
theorem equality_of_nested_array :
    test [("sizes", .document [("$eq", .array [.int32 1])])]
        [("sizes", .array [.array [.int32 1], .array [.int32 2]])] = .ok false ∧
      Bson.equalsOrContains [.array [.int32 1], .array [.int32 2]] (.array [.int32 1]) = true := by
  constructor
  · rfl
  · rfl

/-! ## Fields compared with null -/

/-- Whether the value at a path passes a test, or one of its elements if it is an
array. -/
def someAt (document : Document) (path : String) (passes : Bson → Bool) : Bool :=
  match document.lookup? (Text.pathKeys path) with
  | none => false
  | some (.array items) => items.any passes
  | some value => passes value

/-- Whether there is no value at a path, or null, or an array with null in it. -/
def nullAt (document : Document) (path : String) : Bool :=
  !fieldPresent document path || someAt document path Bson.isNull

theorem fieldEquals_null (document : Document) (path : String) :
    fieldEquals document path .null =
      (nullAt document path || someAt document path Bson.isUncompared) := by
  have hitems : ∀ items : List Bson, Bson.arrayMatches items .null =
      (items.any Bson.isNull || items.any Bson.isUncompared) := by
    intro items
    rw [Bool.eq_iff_iff]
    simp [Bson.arrayMatches, isArray, Bson.filterEquals_null, and_or_left, exists_or]
  cases hvalue : document.lookup? (Text.pathKeys path) with
  | none =>
    rw [fieldEquals, Filter.fieldValue, nullAt, fieldPresent, hvalue]
    rfl
  | some value =>
    rw [nullAt, fieldPresent, someAt, someAt, hvalue, Option.isSome_some, Bool.not_true,
      Bool.false_or]
    cases value with
    | array items => rw [fieldEquals_array hvalue, hitems]
    | _ =>
      rw [fieldEquals, Filter.fieldValue, hvalue]
      rfl

/-- The operand null matches where there is no value, or null, or an array with null in
it, and besides where there is a value of a type without a comparison, or an array with
one in it.  The latter makes a difference unless null is there as well.  A value of such
a type equals null and all values of such types. -/
theorem null_matches (path : String) (hplain : Text.startsWithDollar path = false) :
    (∀ document,
      test [(path, .null)] document =
        .ok (nullAt document path || someAt document path Bson.isUncompared) ∧
      (test [(path, .null)] document = .ok (nullAt document path) ↔
        (someAt document path Bson.isUncompared = true → nullAt document path = true))) ∧
    ∀ value other : Bson, value.isUncompared = true →
      (value.filterEquals other = true ↔ other = .null ∨ other.isUncompared = true) := by
  refine ⟨fun document => ?_, fun value other h => ?_⟩
  · rw [test_value hplain (by rintro entries ⟨⟩), fieldEquals_null]
    refine ⟨rfl, ?_⟩
    rw [Except.ok.injEq]
    cases nullAt document path <;> simp
  · rw [Bson.filterEquals_of_isUncompared h, Bool.or_eq_true]
    refine or_congr_left ?_
    cases other <;> simp [Bson.isNull]

/-- A document without a stamp is found, and so is one with a timestamp for it, which
equals a regular expression but no text. -/
theorem null_matches_stamp :
    test [("meta.stamp", .null)] [("meta", .document [("size", .int32 1)])] = .ok true ∧
      test [("meta.stamp", .null)] [("meta", .document [("stamp", .timestamp 1 1)])] =
        .ok true ∧
      (Bson.timestamp 1 1).filterEquals (.regex "a" "") = true ∧
      ¬ (Bson.timestamp 1 1).filterEquals (.string "a") = true := by
  obtain ⟨htest, hequals⟩ := null_matches "meta.stamp" (by decide +kernel)
  refine ⟨?_, ?_, (hequals _ _ rfl).2 (.inr rfl), fun h => ?_⟩
  · rw [(htest _).1]
    rfl
  · rw [(htest _).1]
    rfl
  · rcases (hequals _ _ rfl).1 h with h | h
    · cases h
    · cases h

/-- A timestamp is not null, and the operand null matches it. -/
theorem timestamp_matches_null :
    test [("stamp", .null)] [("stamp", .timestamp 1 1)] = .ok true ∧
      nullAt [("stamp", .timestamp 1 1)] "stamp" = false := by
  constructor
  · rfl
  · rfl

end FilterDocument

end DocGate
