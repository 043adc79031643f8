import DocGate.Proofs.Filter.Outcomes

/-!
# Filter documents that are accepted

Which filter documents can be turned into a condition, said by rules for documents and
not by the conversion: `FilterDocument.IsFilter` for a filter document, with
`FilterDocument.IsEntry` for one of its entries, and `FilterDocument.IsCondition` for the
condition on a field.

The conversion goes through a document in six functions that call each other.  What each
of them says of its argument is a `Filter.Decides`: it gives a result where the rule
holds, and where the rule does not hold it reports something that is beyond the store.
`Filter.Decides.cons` carries this through the lists, and the recursion on the filter
document puts the rules together.  The result is `Filter.ofDocument_accepts`.
-/

namespace DocGate

/-- The faults that say that a filter document is beyond the store. -/
inductive StoreFault.IsUnsupported : StoreFault → Prop
  | notArray (operator : String) : IsUnsupported (.notArray operator)
  | notFilters (operator : String) : IsUnsupported (.notFilters operator)
  | unsupportedOperator (operator : String) : IsUnsupported (.unsupportedOperator operator)

/-! ## The rules -/

namespace FilterDocument

/-- The operators that combine filters. -/
def logicalOperators : List String :=
  ["$and", "$or", "$nor"]

/-- The operators on the value at a path. -/
def fieldOperators : List String :=
  ["$eq", "$ne", "$gt", "$gte", "$lt", "$lte", "$in", "$nin", "$exists", "$not"]

/-- The conditions on a field: a value to be equal to, which is no document or a document
without operators, or a document of operators in which negated operands are conditions
again. -/
inductive IsCondition : Bson → Prop
  | value {value : Bson} (hvalue : ∀ entries, value ≠ .document entries) : IsCondition value
  | plain {entries : Document}
      (hplain : ∀ entry ∈ entries, Text.startsWithDollar entry.1 = false) :
      IsCondition (.document entries)
  | operators {entries : Document} (hoperators : ∀ entry ∈ entries, entry.1 ∈ fieldOperators)
      (hnegated : ∀ entry ∈ entries, entry.1 = "$not" → IsCondition entry.2) :
      IsCondition (.document entries)

mutual

/-- The filter documents: every entry is one of a filter. -/
inductive IsFilter : Document → Prop
  | intro {entries : Document} (hentries : ∀ entry ∈ entries, IsEntry entry.1 entry.2) :
      IsFilter entries

/-- The entries of a filter: a logical operator with an array of filters, or a name that
is no operator with a condition on the field. -/
inductive IsEntry : String → Bson → Prop
  | logical {key : String} {filters : List Document} (hkey : key ∈ logicalOperators)
      (hfilters : ∀ filter ∈ filters, IsFilter filter) :
      IsEntry key (.array (filters.map .document))
  | condition {key : String} {value : Bson} (hkey : Text.startsWithDollar key = false)
      (hcondition : IsCondition value) :
      IsEntry key value

end

theorem isFilter_cons_iff {key : String} {value : Bson} {rest : Document} :
    IsFilter ((key, value) :: rest) ↔ IsEntry key value ∧ IsFilter rest := by
  constructor
  · intro h
    obtain ⟨hentries⟩ := h
    obtain ⟨hfirst, hrest⟩ := List.forall_mem_cons.1 hentries
    exact ⟨hfirst, .intro hrest⟩
  · intro ⟨hfirst, hrest⟩
    obtain ⟨hentries⟩ := hrest
    exact .intro (List.forall_mem_cons.2 ⟨hfirst, hentries⟩)

/-- Whether some values are filters. -/
def AreFilters (items : List Bson) : Prop :=
  ∃ filters : List Document, items = filters.map .document ∧ ∀ filter ∈ filters, IsFilter filter

theorem areFilters_cons_iff {item : Bson} {rest : List Bson} :
    AreFilters (item :: rest) ↔
      (∃ filter, item = .document filter ∧ IsFilter filter) ∧ AreFilters rest := by
  constructor
  · intro ⟨filters, hitems, hfilters⟩
    cases filters with
    | nil => cases hitems
    | cons filter others =>
      obtain ⟨rfl, rfl⟩ := List.cons.inj hitems
      obtain ⟨hfirst, hothers⟩ := List.forall_mem_cons.1 hfilters
      exact ⟨⟨filter, rfl, hfirst⟩, others, rfl, hothers⟩
  · intro ⟨⟨filter, hitem, hfilter⟩, others, hrest, hothers⟩
    exact ⟨filter :: others, by rw [hitem, hrest, List.map_cons],
      List.forall_mem_cons.2 ⟨hfilter, hothers⟩⟩

/-- An entry with a logical operator is one of a filter if its value is an array of
filters. -/
theorem isEntry_logical_iff {key : String} {value : Bson} (hkey : key ∈ logicalOperators) :
    IsEntry key value ↔ ∃ items, value = .array items ∧ AreFilters items := by
  constructor
  · intro h
    cases h with
    | logical _ hfilters => exact ⟨_, rfl, _, rfl, hfilters⟩
    | condition hplain _ =>
      have hdollar : ∀ operator ∈ logicalOperators, Text.startsWithDollar operator = true := by
        decide
      rw [hdollar key hkey] at hplain
      cases hplain
  · intro ⟨items, hvalue, filters, hitems, hfilters⟩
    rw [hvalue, hitems]
    exact .logical hkey hfilters

/-- Another entry is one of a filter if its name is no operator and its value is a
condition. -/
theorem isEntry_plain_iff {key : String} {value : Bson} (hkey : key ∉ logicalOperators) :
    IsEntry key value ↔ Text.startsWithDollar key = false ∧ IsCondition value := by
  constructor
  · intro h
    cases h with
    | logical hlogical _ => exact absurd hlogical hkey
    | condition hplain hcondition => exact ⟨hplain, hcondition⟩
  · intro ⟨hplain, hcondition⟩
    exact .condition hplain hcondition

/-- Whether the entries of a document are operators on a field. -/
def AreOperators (entries : Document) : Prop :=
  ∀ entry ∈ entries, entry.1 ∈ fieldOperators ∧ (entry.1 = "$not" → IsCondition entry.2)

theorem areOperators_cons_iff {operator : String} {operand : Bson} {rest : Document} :
    AreOperators ((operator, operand) :: rest) ↔
      (operator ∈ fieldOperators ∧ (operator = "$not" → IsCondition operand)) ∧
        AreOperators rest :=
  List.forall_mem_cons

/-- A document with an operator in it is a condition if its entries are operators on a
field. -/
theorem isCondition_document_iff {entries : Document} :
    IsCondition (.document entries) ↔
      (Filter.hasOperator entries = true → AreOperators entries) := by
  rw [Filter.hasOperator, List.any_eq_true]
  constructor
  · intro h hsome
    obtain ⟨entry, hentry, hdollar⟩ := hsome
    cases h with
    | value hvalue => exact absurd rfl (hvalue entries)
    | plain hplain =>
      rw [hplain entry hentry] at hdollar
      cases hdollar
    | operators hoperators hnegated =>
      exact fun other hother => ⟨hoperators other hother, hnegated other hother⟩
  · intro h
    by_cases hsome : ∃ entry ∈ entries, Text.startsWithDollar entry.1 = true
    · exact .operators (fun entry hentry => (h hsome entry hentry).1)
        fun entry hentry => (h hsome entry hentry).2
    · refine .plain fun entry hentry => ?_
      rw [Bool.eq_false_iff]
      exact fun hdollar => hsome ⟨entry, hentry, hdollar⟩

end FilterDocument

/-! ## The conversion -/

namespace Filter

open FilterDocument

/-- What a step of the conversion says of the thing that it converts: where it succeeds
the thing is acceptable, and where it fails the thing is not, and the fault says that it
is beyond the store. -/
inductive Decides {α : Type} (acceptable : Prop) : Except StoreFault α → Prop
  | ok (made : α) (h : acceptable) : Decides acceptable (.ok made)
  | error {fault : StoreFault} (h : ¬ acceptable) (hfault : fault.IsUnsupported) :
      Decides acceptable (.error fault)

namespace Decides

variable {α β : Type} {p q : Prop}

theorem congr {result : Except StoreFault α} (h : Decides p result) (hpq : p ↔ q) :
    Decides q result := by
  rwa [← hpq]

theorem map {result : Except StoreFault α} (h : Decides p result) (make : α → β) :
    Decides p (result.map make) := by
  cases h with
  | ok made h => exact .ok (make made) h
  | error h hfault => exact .error h hfault

/-- A list of things is decided by the first and the others. -/
theorem cons {first : Except StoreFault Filter} {others : Except StoreFault (List Filter)}
    (hfirst : Decides p first) (hothers : Decides q others) :
    Decides (p ∧ q)
      (match first with
        | .error fault => Except.error fault
        | .ok part =>
          match others with
          | .error fault => Except.error fault
          | .ok rest => .ok (part :: rest)) := by
  cases hfirst with
  | error hnot hfault => exact .error (fun h => hnot h.1) hfault
  | ok part hp =>
    cases hothers with
    | error hnot hfault => exact .error (fun h => hnot h.2) hfault
    | ok rest hq => exact .ok (part :: rest) ⟨hp, hq⟩

theorem exists_ok_iff {result : Except StoreFault α} (h : Decides p result) :
    (∃ made, result = .ok made) ↔ p := by
  cases h with
  | ok made h => exact iff_of_true ⟨made, rfl⟩ h
  | error h _ => exact iff_of_false (by simp) h

theorem exists_error {result : Except StoreFault α} (h : Decides p result) (hnot : ¬ p) :
    ∃ fault, result = .error fault ∧ fault.IsUnsupported := by
  cases h with
  | ok _ hp => exact absurd hp hnot
  | error _ hfault => exact ⟨_, rfl, hfault⟩

end Decides

/-- An entry of a filter document is decided by its value: as the operand of a logical
operator, or as a condition. -/
theorem decides_ofEntry {key : String} {value : Bson}
    (hoperand : Decides (∃ items, value = .array items ∧ AreFilters items) (ofOperand key value))
    (hcondition : Decides (IsCondition value) (ofCondition key value)) :
    Decides (IsEntry key value) (ofEntry key value) := by
  by_cases hlogical : key ∈ logicalOperators
  · have hoperand := hoperand.congr (isEntry_logical_iff hlogical).symm
    simp only [logicalOperators, List.mem_cons, List.not_mem_nil, or_false] at hlogical
    rcases hlogical with rfl | rfl | rfl
    · exact hoperand.map Filter.conj
    · exact hoperand.map Filter.disj
    · exact hoperand.map Filter.nor
  · have hentry : IsEntry key value ↔
        Text.startsWithDollar key = false ∧ IsCondition value := isEntry_plain_iff hlogical
    simp only [logicalOperators, List.mem_cons, List.not_mem_nil, or_false, not_or] at hlogical
    obtain ⟨hand, hor, hnor⟩ := hlogical
    rw [ofEntry, if_neg hand, if_neg hor, if_neg hnor]
    split
    · rename_i hdollar
      refine .error (fun h => ?_) (.unsupportedOperator key)
      rw [(hentry.1 h).1] at hdollar
      cases hdollar
    · rename_i hplain
      refine hcondition.congr ?_
      rw [hentry]
      exact (and_iff_right (Bool.eq_false_iff.2 hplain)).symm

/-- The comparisons are the operators on a field besides those for presence and
negation. -/
theorem mem_fieldOperators_iff {operator : String} (hexists : operator ≠ "$exists")
    (hnot : operator ≠ "$not") :
    operator ∈ fieldOperators ↔
      ∃ comparison, Comparison.ofOperator? operator = some comparison := by
  rw [← Option.ne_none_iff_exists', Comparison.ofOperator?, ne_eq, Assoc.get?_eq_none_iff, not_not]
  simp [Assoc.keys, fieldOperators, hexists, hnot]

/-- An operator on a field is decided by its name, and a negation by its operand as
well. -/
theorem decides_ofOperator {path operator : String} {operand : Bson}
    (hcondition : Decides (IsCondition operand) (ofCondition path operand)) :
    Decides (operator ∈ fieldOperators ∧ (operator = "$not" → IsCondition operand))
      (ofOperator path operator operand) := by
  unfold ofOperator
  split
  · rename_i hexists
    subst hexists
    have hmem : "$exists" ∈ fieldOperators := by decide
    exact .ok _ ⟨hmem, fun h => absurd h (by decide)⟩
  · rename_i hexists
    split
    · rename_i hnot
      subst hnot
      refine (hcondition.congr ?_).map Filter.negation
      have hmem : "$not" ∈ fieldOperators := by decide
      exact ⟨fun h => ⟨hmem, fun _ => h⟩, fun h => h.2 rfl⟩
    · rename_i hnot
      have hoperators := mem_fieldOperators_iff hexists hnot
      split
      · rename_i comparison hcomparison
        exact .ok _ ⟨hoperators.2 ⟨comparison, hcomparison⟩, fun h => absurd h hnot⟩
      · rename_i hnone
        refine .error (fun h => ?_) (.unsupportedOperator operator)
        obtain ⟨comparison, hcomparison⟩ := hoperators.1 h.1
        rw [hnone] at hcomparison
        cases hcomparison

-- One theorem for each function of the conversion, by recursion on the filter document.
mutual

/-- The conversion of a filter document decides whether it is one. -/
theorem decides_ofEntries : ∀ entries : List (String × Bson),
    Decides (IsFilter entries) (ofEntries entries)
  | [] => .ok [] (.intro (List.forall_mem_nil _))
  | (key, value) :: rest =>
    (Decides.cons
      (decides_ofEntry (decides_ofOperand key value) (decides_ofCondition key value))
      (decides_ofEntries rest)).congr isFilter_cons_iff.symm

theorem decides_ofOperand : ∀ (operator : String) (operand : Bson),
    Decides (∃ items, operand = .array items ∧ AreFilters items) (ofOperand operator operand)
  | operator, operand => by
    cases operand with
    | array items =>
      refine (decides_ofItems operator items).congr ?_
      exact ⟨fun h => ⟨items, rfl, h⟩, fun ⟨_, hitems, h⟩ => Bson.array.inj hitems ▸ h⟩
    | _ => exact .error (fun ⟨_, h, _⟩ => Bson.noConfusion h) (.notArray operator)

theorem decides_ofItems : ∀ (operator : String) (items : List Bson),
    Decides (AreFilters items) (ofItems operator items)
  | _, [] => .ok [] ⟨[], rfl, List.forall_mem_nil _⟩
  | operator, item :: rest =>
    (Decides.cons (decides_ofItem operator item) (decides_ofItems operator rest)).congr
      areFilters_cons_iff.symm

theorem decides_ofItem : ∀ (operator : String) (item : Bson),
    Decides (∃ filter, item = .document filter ∧ IsFilter filter) (ofItem operator item)
  | operator, item => by
    cases item with
    | document entries =>
      refine ((decides_ofEntries entries).congr ?_).map collapse
      exact ⟨fun h => ⟨entries, rfl, h⟩, fun ⟨_, hentries, h⟩ => Bson.document.inj hentries ▸ h⟩
    | _ => exact .error (fun ⟨_, h, _⟩ => Bson.noConfusion h) (.notFilters operator)

theorem decides_ofCondition : ∀ (path : String) (value : Bson),
    Decides (IsCondition value) (ofCondition path value)
  | path, value => by
    cases value with
    | document entries =>
      rw [ofCondition]
      split
      · rename_i hoperator
        refine ((decides_ofOperators path entries).congr ?_).map collapse
        rw [isCondition_document_iff]
        exact ⟨fun h _ => h, fun h => h hoperator⟩
      · rename_i hoperator
        exact .ok _ (isCondition_document_iff.2 fun h => absurd h hoperator)
    | _ => exact .ok _ (.value fun _ h => Bson.noConfusion h)

theorem decides_ofOperators : ∀ (path : String) (entries : List (String × Bson)),
    Decides (AreOperators entries) (ofOperators path entries)
  | _, [] => .ok [] (List.forall_mem_nil _)
  | path, (_, operand) :: rest =>
    (Decides.cons (decides_ofOperator (decides_ofCondition path operand))
      (decides_ofOperators path rest)).congr areOperators_cons_iff.symm

end

theorem decides_ofDocument (document : Document) :
    Decides (IsFilter document) (ofDocument document) :=
  (decides_ofEntries document).map collapse

/-- A filter document is turned into a condition if and only if it follows the rules: at
every level a logical operator has an array of filters, and any other name is no operator
and has a value, a document without operators, or a document of operators on a field in
which negated operands are conditions again.  Otherwise the store reports what is beyond
it.  No part of an accepted document is left out: on every stored document the condition
has the outcome that is read off the whole filter document. -/
theorem ofDocument_accepts (document : Document) :
    ((∃ condition, ofDocument document = .ok condition) ↔ IsFilter document) ∧
    (¬ IsFilter document →
      ∃ fault, ofDocument document = .error fault ∧ fault.IsUnsupported) ∧
    ∀ condition, ofDocument document = .ok condition → ∀ stored,
      condition.holds stored =
        outcome (entriesStumble stored document) (entriesHold stored document) :=
  ⟨(decides_ofDocument document).exists_ok_iff, (decides_ofDocument document).exists_error,
    fun _ hcondition stored => holds_eq_outcome hcondition stored⟩

/-- An empty filter and a negated condition among alternatives, beside a document to be
equal to, are accepted; an operator beside a name in a condition is not. -/
theorem ofDocument_accepts_alternatives :
    IsFilter
        [("$or", .array [.document [],
            .document [("size", .document [("$not", .document [("$gt", .int32 3)])])]]),
          ("box", .document [("color", .string "red")])] ∧
      ¬ IsFilter [("size", .document [("$gt", .int32 3), ("unit", .string "cm")])] ∧
      ∃ fault, ofDocument [("size", .document [("$gt", .int32 3), ("unit", .string "cm")])] =
          .error fault ∧ fault.IsUnsupported := by
  obtain ⟨haccepted, -, -⟩ := ofDocument_accepts
    [("$or", .array [.document [],
        .document [("size", .document [("$not", .document [("$gt", .int32 3)])])]]),
      ("box", .document [("color", .string "red")])]
  obtain ⟨hmixed, hrefused, -⟩ := ofDocument_accepts
    [("size", .document [("$gt", .int32 3), ("unit", .string "cm")])]
  have hnot : ¬ IsFilter [("size", .document [("$gt", .int32 3), ("unit", .string "cm")])] := by
    intro h
    obtain ⟨condition, hcondition⟩ := hmixed.2 h
    cases hcondition
  exact ⟨haccepted.1 ⟨_, rfl⟩, hnot, hrefused hnot⟩

end Filter

end DocGate
