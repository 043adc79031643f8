import DocGate.Proofs.Bson.Equality
import DocGate.Proofs.Filter.Outcomes

/-!
# The clauses of filters

What a filter document says can be told clause by clause: all entries hold, `$or`
asks for some filter of its list, `$ne` is the negation of `$eq`, and so on.
`FilterDocument.Reading` is a reading of filter documents that follows these
clauses, each of them a field of the structure, and has no other condition on
how it is computed.

* `FilterDocument.directReading` is such a reading, so the clauses do not
  contradict each other.
* `FilterDocument.Reading.filter_eq_entriesHold`: on a filter document that the
  store can test there is only one.  The induction is on the values in the
  filter document.

The main result, `Filter.holds_as_read`, puts both together with the outcome of
the condition that a filter document is turned into.
-/

namespace DocGate

namespace FilterDocument

/-- The operands that `$exists` takes for false: null, the truth value, and zero as
a number of each type.  A double has two zeros. -/
inductive Falsy : Bson → Prop
  | null : Falsy .null
  | bool : Falsy (.bool false)
  | int32 : Falsy (.int32 0)
  | int64 : Falsy (.int64 0)
  | positiveZero : Falsy (.double ⟨0⟩)
  | negativeZero : Falsy (.double ⟨0x8000000000000000⟩)

/-- A reading of filter documents, tested on one document, that follows the
clauses of filters. -/
structure Reading (document : Document) where
  /-- Whether a filter document holds. -/
  filter : Document → Bool
  /-- Whether a condition on the value at a path holds. -/
  condition : String → Bson → Bool
  /-- All entries of a filter document hold. -/
  filter_entries : ∀ entries, filter entries = entries.all fun entry => filter [entry]
  filter_and : ∀ filters : List Document,
    filter [("$and", .array (filters.map .document))] = filters.all filter
  filter_or : ∀ filters : List Document,
    filter [("$or", .array (filters.map .document))] = filters.any filter
  filter_nor : ∀ filters : List Document,
    filter [("$nor", .array (filters.map .document))] = !filters.any filter
  filter_field : ∀ path value, Text.startsWithDollar path = false →
    filter [(path, value)] = condition path value
  /-- A value that is no document with an operator is compared as a whole. -/
  condition_value : ∀ path value,
    (∀ entries, value = .document entries → Filter.hasOperator entries = false) →
      condition path value = fieldEquals document path value
  /-- All operators of a condition hold, each of them on the same path. -/
  condition_operators : ∀ path operators, operators ≠ [] →
    (∀ entry ∈ operators, Text.startsWithDollar entry.1 = true) →
      condition path (.document operators) =
        operators.all fun entry => condition path (.document [entry])
  condition_eq : ∀ path operand,
    condition path (.document [("$eq", operand)]) = fieldEquals document path operand
  condition_ne : ∀ path operand,
    condition path (.document [("$ne", operand)]) = !condition path (.document [("$eq", operand)])
  condition_ordered : ∀ path operand, ∀ entry ∈ [("$gt", Ordering.isGT), ("$gte", Ordering.isGE),
    ("$lt", Ordering.isLT), ("$lte", Ordering.isLE)],
      condition path (.document [(entry.1, operand)]) = fieldCompares document path entry.2 operand
  condition_in : ∀ path values, condition path (.document [("$in", .array values)]) =
    values.any fun value => condition path (.document [("$eq", value)])
  condition_nin : ∀ path values, condition path (.document [("$nin", .array values)]) =
    !condition path (.document [("$in", .array values)])
  /-- A falsy operand asks for the documents without the field, any other for those
  with it. -/
  condition_absent : ∀ path operand, Falsy operand →
    condition path (.document [("$exists", operand)]) = !fieldPresent document path
  condition_present : ∀ path operand, ¬ Falsy operand →
    condition path (.document [("$exists", operand)]) = fieldPresent document path
  /-- The operand of a negation is a condition on the same path. -/
  condition_not : ∀ path operand, condition path (.document [("$not", operand)]) =
    !condition path operand

variable {document : Document}

/-- Tests that agree on the elements of a list agree on the list. -/
theorem all_congr_of_mem {α : Type} {items : List α} {first second : α → Bool}
    (h : ∀ item ∈ items, first item = second item) : items.all first = items.all second := by
  rw [Bool.eq_iff_iff, List.all_eq_true, List.all_eq_true]
  exact forall₂_congr fun item hitem => by rw [h item hitem]

/-! ## The direct reading follows the clauses -/

theorem entriesHold_eq_all (entries : Document) :
    entriesHold document entries = entries.all fun entry => entriesHold document [entry] := by
  induction entries with
  | nil => rfl
  | cons entry rest ih =>
    obtain ⟨key, value⟩ := entry
    rw [entriesHold, ih, List.all_cons, entriesHold, entriesHold, Bool.and_true]

theorem operatorsHold_eq_all (path : String) (operators : Document) :
    operatorsHold document path operators =
      operators.all fun entry => operatorsHold document path [entry] := by
  induction operators with
  | nil => rfl
  | cons entry rest ih =>
    obtain ⟨operator, operand⟩ := entry
    rw [operatorsHold, ih, List.all_cons, operatorsHold, operatorsHold, Bool.and_true]

/-- The operands for which `$exists` asks for absence are the falsy ones. -/
theorem asksPresence_eq_false_iff {operand : Bson} :
    Filter.asksPresence operand = false ↔ Falsy operand := by
  constructor
  · intro h
    cases operand with
    | null => exact .null
    | bool value =>
      obtain rfl : value = false := h
      exact .bool
    | int32 n =>
      obtain rfl : n = 0 := by simpa [Filter.asksPresence, Projection.marker?] using h
      exact .int32
    | int64 n =>
      obtain rfl : n = 0 := by simpa [Filter.asksPresence, Projection.marker?] using h
      exact .int64
    | double d =>
      have hzero : d.isZero = true := by
        simpa [Filter.asksPresence, Projection.marker?] using h
      obtain rfl | rfl := Double.isZero_iff.1 hzero
      · exact .positiveZero
      · exact .negativeZero
    | _ => cases h
  · intro h
    cases h <;> rfl

theorem operandOutcomes_filters (filters : List Document) :
    operandOutcomes document (.array (filters.map .document)) =
      filters.map (entriesHold document) := by
  rw [operandOutcomes]
  induction filters with
  | nil => rfl
  | cons entries rest ih =>
    rw [List.map_cons, itemOutcomes, itemHolds, ih]
    rfl

/-- A field with one operator has the condition that the operator is. -/
theorem conditionHolds_operator (path : String) {operator : String} (operand : Bson)
    (h : Text.startsWithDollar operator = true) :
    conditionHolds document path (.document [(operator, operand)]) =
      operatorsHold document path [(operator, operand)] := by
  have hoperator : Filter.hasOperator [(operator, operand)] = true := by
    rw [Filter.hasOperator, List.any_cons, h, Bool.true_or]
  rw [conditionHolds, if_pos hoperator]

/-- The recursion on filter documents follows the clauses. -/
def directReading (document : Document) : Reading document where
  filter := entriesHold document
  condition := conditionHolds document
  filter_entries := entriesHold_eq_all
  filter_and filters := by
    simp [entriesHold, operandOutcomes_filters]
  filter_or filters := by
    simp [entriesHold, operandOutcomes_filters]
  filter_nor filters := by
    simp [entriesHold, operandOutcomes_filters]
  filter_field path value hplain := by
    have hand : path ≠ "$and" := Filter.ne_of_plain hplain (by decide)
    have hor : path ≠ "$or" := Filter.ne_of_plain hplain (by decide)
    have hnor : path ≠ "$nor" := Filter.ne_of_plain hplain (by decide)
    rw [entriesHold, if_neg hand, if_neg hor, if_neg hnor, entriesHold, Bool.and_true]
  condition_value path value h := by
    cases value with
    | document entries => rw [conditionHolds, h entries rfl, if_neg Bool.false_ne_true]
    | _ => rfl
  condition_operators path operators hne hdollar := by
    have hoperator : Filter.hasOperator operators = true := by
      obtain ⟨entry, hentry⟩ := List.exists_mem_of_ne_nil operators hne
      exact List.any_eq_true.2 ⟨entry, hentry, hdollar entry hentry⟩
    rw [conditionHolds, if_pos hoperator, operatorsHold_eq_all]
    refine all_congr_of_mem fun entry hentry => ?_
    rw [conditionHolds_operator path entry.2 (hdollar entry hentry)]
  condition_eq path operand := by
    rw [conditionHolds_operator path operand (by decide)]
    simp [operatorsHold, comparisonHolds]
  condition_ne path operand := by
    rw [conditionHolds_operator path operand (by decide),
      conditionHolds_operator path operand (by decide)]
    simp [operatorsHold, comparisonHolds]
  condition_ordered path operand entry hentry := by
    simp only [List.mem_cons, List.not_mem_nil, or_false] at hentry
    rcases hentry with rfl | rfl | rfl | rfl <;>
      rw [conditionHolds_operator path operand (by decide)] <;> simp [operatorsHold, comparisonHolds]
  condition_in path values := by
    rw [conditionHolds_operator path _ (by decide), operatorsHold]
    simp only [conditionHolds_operator path _ (by decide : Text.startsWithDollar "$eq" = true)]
    simp [operatorsHold, comparisonHolds, fieldAmong]
  condition_nin path values := by
    rw [conditionHolds_operator path _ (by decide), conditionHolds_operator path _ (by decide)]
    simp [operatorsHold, comparisonHolds]
  condition_absent path operand hfalsy := by
    rw [conditionHolds_operator path operand (by decide)]
    simp [operatorsHold, asksPresence_eq_false_iff.2 hfalsy]
  condition_present path operand htruthy := by
    have hasks : Filter.asksPresence operand = true := by
      rw [← Bool.not_eq_false, asksPresence_eq_false_iff]
      exact htruthy
    rw [conditionHolds_operator path operand (by decide)]
    simp [operatorsHold, hasks]
  condition_not path operand := by
    rw [conditionHolds_operator path operand (by decide)]
    simp [operatorsHold]

theorem directReading_filter (document : Document) (entries : Document) :
    (directReading document).filter entries = entriesHold document entries := rfl

/-! ## There is only one reading -/

theorem entriesListed_eq_all (entries : Document) :
    entriesListed entries = entries.all fun entry => entriesListed [entry] := by
  induction entries with
  | nil => rfl
  | cons entry rest ih =>
    obtain ⟨key, value⟩ := entry
    rw [entriesListed, ih, List.all_cons, entriesListed, entriesListed, Bool.and_true]

theorem operatorsListed_eq_all (operators : Document) :
    operatorsListed operators = operators.all fun entry => operatorsListed [entry] := by
  induction operators with
  | nil => rfl
  | cons entry rest ih =>
    obtain ⟨operator, operand⟩ := entry
    rw [operatorsListed, ih, List.all_cons, operatorsListed, operatorsListed, Bool.and_true]

namespace Reading

variable (reading : Reading document)

/-- A reading agrees with the direct one on a value, in each of the places where a
value can stand in a filter document that the store can test. -/
structure Agrees (value : Bson) : Prop where
  operand : ∀ {operator : String} {parts : List Filter},
    Filter.ofOperand operator value = .ok parts → operandListed value = true →
      ∃ filters : List Document, value = .array (filters.map .document) ∧
        filters.map reading.filter = operandOutcomes document value
  item : ∀ {operator : String} {part : Filter},
    Filter.ofItem operator value = .ok part → itemListed value = true →
      ∃ entries, value = .document entries ∧ reading.filter entries = entriesHold document entries
  condition : ∀ {path : String} {part : Filter},
    Filter.ofCondition path value = .ok part → conditionListed value = true →
      reading.condition path value = conditionHolds document path value

variable {reading}

/-- The reading of an entry with a value on which the reading agrees. -/
theorem filter_entry {key : String} {value : Bson} {part : Filter} (hvalue : reading.Agrees value)
    (hpart : Filter.ofEntry key value = .ok part) (hlisted : entriesListed [(key, value)] = true) :
    reading.filter [(key, value)] = entriesHold document [(key, value)] := by
  rw [entriesListed, entriesListed, Bool.and_true] at hlisted
  rcases Filter.ofEntry_cases hpart with ⟨parts, hparts, hkind⟩ | ⟨hplain, hcondition⟩
  · have hlogical : key = "$and" ∨ key = "$or" ∨ key = "$nor" :=
      hkind.imp And.left (Or.imp And.left And.left)
    rw [if_pos hlogical] at hlisted
    obtain ⟨filters, rfl, houtcomes⟩ := hvalue.operand hparts hlisted
    rcases hlogical with rfl | rfl | rfl
    · simp [reading.filter_and, entriesHold, ← houtcomes]
    · simp [reading.filter_or, entriesHold, ← houtcomes]
    · simp [reading.filter_nor, entriesHold, ← houtcomes]
  · have hand : key ≠ "$and" := Filter.ne_of_plain hplain (by decide)
    have hor : key ≠ "$or" := Filter.ne_of_plain hplain (by decide)
    have hnor : key ≠ "$nor" := Filter.ne_of_plain hplain (by decide)
    rw [if_neg (by simp [hand, hor, hnor])] at hlisted
    rw [reading.filter_field key value hplain, hvalue.condition hcondition hlisted]
    exact ((directReading document).filter_field key value hplain).symm

/-- What the clauses say of a comparison. -/
theorem condition_comparison (reading : Reading document) {path operator : String} {operand : Bson}
    {comparison : Comparison} (h : Comparison.ofOperator? operator = some comparison)
    (hlisted : operator = "$in" ∨ operator = "$nin" → isArray operand = true) :
    reading.condition path (.document [(operator, operand)]) =
      comparisonHolds document path operator operand := by
  have hmem := Filter.ofOperator?_cases h
  simp only [List.mem_cons, Prod.mk.injEq, List.not_mem_nil, or_false] at hmem
  rcases hmem with ⟨rfl, -⟩ | ⟨rfl, -⟩ | ⟨rfl, -⟩ | ⟨rfl, -⟩ | ⟨rfl, -⟩ | ⟨rfl, -⟩ | ⟨rfl, -⟩ |
    ⟨rfl, -⟩
  · exact reading.condition_eq path operand
  · rw [reading.condition_ne, reading.condition_eq]
    rfl
  · exact reading.condition_ordered path operand ("$gt", Ordering.isGT) (by simp)
  · exact reading.condition_ordered path operand ("$gte", Ordering.isGE) (by simp)
  · exact reading.condition_ordered path operand ("$lt", Ordering.isLT) (by simp)
  · exact reading.condition_ordered path operand ("$lte", Ordering.isLE) (by simp)
  · obtain ⟨values, rfl⟩ := exists_of_isArray (hlisted (.inl rfl))
    rw [reading.condition_in, List.any_congr rfl fun value => reading.condition_eq path value]
    rfl
  · obtain ⟨values, rfl⟩ := exists_of_isArray (hlisted (.inr rfl))
    rw [reading.condition_nin, reading.condition_in,
      List.any_congr rfl fun value => reading.condition_eq path value]
    rfl

/-- The reading of an operator with an operand on which the reading agrees. -/
theorem condition_operator {path operator : String} {operand : Bson} {part : Filter}
    (hoperand : reading.Agrees operand) (hpart : Filter.ofOperator path operator operand = .ok part)
    (hlisted : operatorsListed [(operator, operand)] = true) :
    reading.condition path (.document [(operator, operand)]) =
      conditionHolds document path (.document [(operator, operand)]) := by
  rw [operatorsListed, operatorsListed, Bool.and_true] at hlisted
  rcases Filter.ofOperator_cases hpart with ⟨rfl, -⟩ | ⟨rfl, negated, hnegated, -⟩ |
    ⟨comparison, hcomparison, -⟩
  · by_cases hfalsy : Falsy operand
    · exact (reading.condition_absent path operand hfalsy).trans
        ((directReading document).condition_absent path operand hfalsy).symm
    · exact (reading.condition_present path operand hfalsy).trans
        ((directReading document).condition_present path operand hfalsy).symm
  · rw [if_pos rfl] at hlisted
    rw [reading.condition_not, hoperand.condition hnegated hlisted]
    exact ((directReading document).condition_not path operand).symm
  · have hnot : operator ≠ "$not" := by
      rintro rfl
      cases hcomparison
    rw [if_neg hnot] at hlisted
    have harray : operator = "$in" ∨ operator = "$nin" → isArray operand = true := by
      intro hmembership
      rwa [if_pos hmembership] at hlisted
    rw [reading.condition_comparison hcomparison harray]
    exact ((directReading document).condition_comparison hcomparison harray).symm

/-- A filter document is read as the direct reading reads it if its entries are. -/
theorem filter_eq_of_agrees {entries : Document} {parts : List Filter}
    (hentries : ∀ entry ∈ entries, reading.Agrees entry.2)
    (hparts : Filter.ofEntries entries = .ok parts) (hlisted : entriesListed entries = true) :
    reading.filter entries = entriesHold document entries := by
  rw [entriesListed_eq_all, List.all_eq_true] at hlisted
  rw [reading.filter_entries, entriesHold_eq_all]
  refine all_congr_of_mem fun entry hentry => ?_
  obtain ⟨part, hpart⟩ := Filter.exists_ofEntry_of_mem hparts entry hentry
  exact filter_entry (hentries entry hentry) hpart (hlisted entry hentry)

/-- A condition with operators is read as the direct reading reads it if the
operators are. -/
theorem condition_eq_of_agrees {path : String} {operators : Document} {parts : List Filter}
    (hoperands : ∀ entry ∈ operators, reading.Agrees entry.2) (hne : operators ≠ [])
    (hparts : Filter.ofOperators path operators = .ok parts)
    (hlisted : operatorsListed operators = true) :
    reading.condition path (.document operators) =
      conditionHolds document path (.document operators) := by
  have hdollar : ∀ entry ∈ operators, Text.startsWithDollar entry.1 = true := by
    intro entry hentry
    obtain ⟨part, hpart⟩ := Filter.exists_ofOperator_of_mem hparts entry hentry
    exact Filter.startsWithDollar_of_ofOperator hpart
  rw [operatorsListed_eq_all, List.all_eq_true] at hlisted
  rw [reading.condition_operators path operators hne hdollar]
  refine Eq.trans (all_congr_of_mem fun entry hentry => ?_)
    ((directReading document).condition_operators path operators hne hdollar).symm
  obtain ⟨part, hpart⟩ := Filter.exists_ofOperator_of_mem hparts entry hentry
  exact condition_operator (hoperands entry hentry) hpart (hlisted entry hentry)

/-- The filters in the operand of a logical operator. -/
theorem exists_filters_of_agrees {operator : String} {items : List Bson} {parts : List Filter}
    (hitems : ∀ item ∈ items, reading.Agrees item)
    (hparts : Filter.ofItems operator items = .ok parts) (hlisted : itemsListed items = true) :
    ∃ filters : List Document, items = filters.map .document ∧
      filters.map reading.filter = itemOutcomes document items := by
  induction items generalizing parts with
  | nil => exact ⟨[], rfl, rfl⟩
  | cons item rest ih =>
    obtain ⟨hitem, hrest⟩ := List.forall_mem_cons.1 hitems
    obtain ⟨part, others, hpart, hothers, -⟩ := Filter.ofItems_cons_eq_ok_iff.1 hparts
    rw [itemsListed, Bool.and_eq_true] at hlisted
    obtain ⟨entries, rfl, hfilter⟩ := hitem.item hpart hlisted.1
    obtain ⟨filters, rfl, houtcomes⟩ := ih hrest hothers hlisted.2
    refine ⟨entries :: filters, rfl, ?_⟩
    rw [List.map_cons, hfilter, houtcomes, itemOutcomes, itemHolds]

/-- A value without operators is read as an equality. -/
theorem condition_plain {path : String} {value : Bson}
    (h : ∀ entries, value = .document entries → Filter.hasOperator entries = false) :
    reading.condition path value = conditionHolds document path value :=
  (reading.condition_value path value h).trans
    ((directReading document).condition_value path value h).symm

/-- The clauses leave no choice on any value. -/
theorem agrees (value : Bson) : reading.Agrees value := by
  induction value using Bson.induction with
  | scalar value hscalar =>
    refine ⟨fun hparts _ => ?_, fun hpart _ => ?_, fun _ _ => condition_plain ?_⟩
    · cases value with
      | array items => cases hscalar
      | _ => cases hparts
    · cases value with
      | document entries => cases hscalar
      | _ => cases hpart
    · rintro entries rfl
      cases hscalar
  | array items ih =>
    refine ⟨fun hparts hlisted => ?_, nofun, fun _ _ => condition_plain nofun⟩
    obtain ⟨filters, rfl, houtcomes⟩ := exists_filters_of_agrees ih hparts hlisted
    exact ⟨filters, rfl, houtcomes⟩
  | document entries ih =>
    refine ⟨nofun, fun hpart hlisted => ?_, fun hpart hlisted => ?_⟩
    · obtain ⟨parts, hparts, -⟩ := Filter.map_eq_ok_iff.1 hpart
      exact ⟨entries, rfl, filter_eq_of_agrees ih hparts hlisted⟩
    · cases hoperator : Filter.hasOperator entries with
      | false =>
        refine condition_plain fun own hown => ?_
        obtain rfl := Bson.document.inj hown
        exact hoperator
      | true =>
        have hne : entries ≠ [] := by
          rintro rfl
          cases hoperator
        rw [Filter.ofCondition, if_pos hoperator] at hpart
        obtain ⟨parts, hparts, -⟩ := Filter.map_eq_ok_iff.1 hpart
        rw [conditionListed, hoperator, Bool.not_true, Bool.false_or] at hlisted
        exact condition_eq_of_agrees ih hne hparts hlisted

/-- On a filter document that the store can test, every reading that follows the
clauses is the direct one. -/
theorem filter_eq_entriesHold (reading : Reading document) {entries : Document} {condition : Filter}
    (h : Filter.ofDocument entries = .ok condition) (hlisted : entriesListed entries = true) :
    reading.filter entries = entriesHold document entries := by
  obtain ⟨parts, hparts, -⟩ := Filter.map_eq_ok_iff.1 h
  exact filter_eq_of_agrees (fun entry _ => agrees entry.2) hparts hlisted

end Reading

end FilterDocument

namespace Filter

/-- A filter document that the store accepts, and whose membership tests have
lists, becomes a condition that has an outcome on every document.  There is a
reading of filter documents that follows the clauses, and the outcome is what any
such reading says of the filter document. -/
theorem holds_as_read {entries : Document} {condition : Filter}
    (h : Filter.ofDocument entries = .ok condition)
    (hlisted : FilterDocument.entriesListed entries = true) (document : Document) :
    Nonempty (FilterDocument.Reading document) ∧
      ∀ reading : FilterDocument.Reading document,
        condition.holds document = .ok (reading.filter entries) := by
  refine ⟨⟨FilterDocument.directReading document⟩, fun reading => ?_⟩
  rw [reading.filter_eq_entriesHold h hlisted]
  exact holds_of_ofDocument h hlisted

/-- A filter on books: an entry with a negated membership test, one for a field that
is absent, and one that asks for none of two filters. -/
def bookFilter : Document := [
  ("pages", .document [
    ("$not", .document [("$in", .array [.int32 1, .null]), ("$lt", .int32 9)]),
    ("$exists", .bool true)]),
  ("meta.lender", .document [("$exists", .int32 0)]),
  ("$nor", .array [.document [("title", .string "Emma")],
    .document [("meta.isbn", .document [("$ne", .string "x1")])]])]

/-- The filter on books holds of a book that it should hold of. -/
theorem holds_as_read_book :
    ∃ condition, Filter.ofDocument bookFilter = .ok condition ∧
      FilterDocument.entriesListed bookFilter = true ∧
      condition.holds [("title", .string "Dune"), ("pages", .int32 412),
        ("meta", .document [("isbn", .string "x1")])] = .ok true := by
  have houtcome := (holds_as_read (rfl : Filter.ofDocument bookFilter = .ok _) rfl
    [("title", .string "Dune"), ("pages", .int32 412),
      ("meta", .document [("isbn", .string "x1")])]).2 (FilterDocument.directReading _)
  refine ⟨_, rfl, rfl, houtcome.trans (congrArg Except.ok ?_)⟩
  rw [FilterDocument.directReading_filter]
  decide +kernel

end Filter

end DocGate
