import DocGate.Filter.Basic

/-!
# From filter documents to conditions

`Filter.ofDocument` goes through a filter document and gives up at the first
thing that is beyond the store.  The lemmas here say what it has found where it
has not given up: one for each kind of thing in a filter document, with the
condition that comes of it.  The last ones are about filter documents with a
single condition on a field (`Filter.ofDocument_comparison`,
`Filter.ofDocument_value`).
-/

namespace DocGate

namespace Filter

/-! ## Results -/

theorem map_eq_ok_iff {α β : Type} {result : Except StoreFault α} {make : α → β} {made : β} :
    result.map make = .ok made ↔ ∃ value, result = .ok value ∧ made = make value := by
  cases result with
  | error fault => simp [Except.map]
  | ok value => simp [Except.map, eq_comm]

/-- A first condition and others give all of them. -/
theorem cons_eq_ok_iff {first : Except StoreFault Filter} {others : Except StoreFault (List Filter)}
    {parts : List Filter} :
    (match first with
      | .error fault => Except.error fault
      | .ok part =>
        match others with
        | .error fault => Except.error fault
        | .ok rest => .ok (part :: rest)) = .ok parts ↔
      ∃ part rest, first = .ok part ∧ others = .ok rest ∧ parts = part :: rest := by
  cases first with
  | error fault => simp
  | ok part =>
    cases others with
    | error fault => simp
    | ok rest => simp [eq_comm]

/-- Where a list of things gives conditions, each of the things gives one. -/
theorem exists_of_mem {α : Type} {one : α → Except StoreFault Filter}
    {list : List α → Except StoreFault (List Filter)}
    (hcons : ∀ first rest parts, list (first :: rest) = .ok parts →
      ∃ part others, one first = .ok part ∧ list rest = .ok others)
    {things : List α} {parts : List Filter} (h : list things = .ok parts) :
    ∀ thing ∈ things, ∃ part, one thing = .ok part := by
  induction things generalizing parts with
  | nil => exact List.forall_mem_nil _
  | cons first rest ih =>
    obtain ⟨part, others, hpart, hothers⟩ := hcons first rest parts h
    exact List.forall_mem_cons.2 ⟨⟨part, hpart⟩, ih hothers⟩

/-! ## Filters -/

/-- A plain name is no operator. -/
theorem ne_of_plain {key operator : String} (hplain : Text.startsWithDollar key = false)
    (hdollar : Text.startsWithDollar operator = true) : key ≠ operator := by
  rintro rfl
  rw [hplain] at hdollar
  cases hdollar

/-- The condition for one entry of a filter document. -/
def ofEntry (key : String) (value : Bson) : Except StoreFault Filter :=
  if key = "$and" then (ofOperand key value).map .conj
  else if key = "$or" then (ofOperand key value).map .disj
  else if key = "$nor" then (ofOperand key value).map .nor
  else if Text.startsWithDollar key then .error (.unsupportedOperator key)
  else ofCondition key value

/-- Every entry gives one condition, in order. -/
theorem ofEntries_cons_eq_ok_iff {key : String} {value : Bson} {rest : Document}
    {parts : List Filter} :
    ofEntries ((key, value) :: rest) = .ok parts ↔
      ∃ part others, ofEntry key value = .ok part ∧ ofEntries rest = .ok others ∧
        parts = part :: others :=
  cons_eq_ok_iff

theorem exists_ofEntry_of_mem {entries : Document} {parts : List Filter}
    (h : ofEntries entries = .ok parts) :
    ∀ entry ∈ entries, ∃ part, ofEntry entry.1 entry.2 = .ok part := by
  refine exists_of_mem (fun first rest parts hparts => ?_) h
  obtain ⟨part, others, hpart, hothers, -⟩ := ofEntries_cons_eq_ok_iff.1 hparts
  exact ⟨part, others, hpart, hothers⟩

/-- An entry is a logical operator over some filters, or a condition on a
field. -/
theorem ofEntry_cases {key : String} {value : Bson} {part : Filter}
    (h : ofEntry key value = .ok part) :
    (∃ parts, ofOperand key value = .ok parts ∧
        (key = "$and" ∧ part = .conj parts ∨ key = "$or" ∧ part = .disj parts ∨
          key = "$nor" ∧ part = .nor parts)) ∨
      Text.startsWithDollar key = false ∧ ofCondition key value = .ok part := by
  unfold ofEntry at h
  split at h
  · rename_i hkey
    obtain ⟨parts, hparts, rfl⟩ := map_eq_ok_iff.1 h
    exact .inl ⟨parts, hparts, .inl ⟨hkey, rfl⟩⟩
  · split at h
    · rename_i hkey
      obtain ⟨parts, hparts, rfl⟩ := map_eq_ok_iff.1 h
      exact .inl ⟨parts, hparts, .inr (.inl ⟨hkey, rfl⟩)⟩
    · split at h
      · rename_i hkey
        obtain ⟨parts, hparts, rfl⟩ := map_eq_ok_iff.1 h
        exact .inl ⟨parts, hparts, .inr (.inr ⟨hkey, rfl⟩)⟩
      · split at h
        · cases h
        · rename_i hplain
          exact .inr ⟨by simpa using hplain, h⟩

/-- Every element of an operand gives one condition, in order. -/
theorem ofItems_cons_eq_ok_iff {operator : String} {item : Bson} {rest : List Bson}
    {parts : List Filter} :
    ofItems operator (item :: rest) = .ok parts ↔
      ∃ part others, ofItem operator item = .ok part ∧ ofItems operator rest = .ok others ∧
        parts = part :: others :=
  cons_eq_ok_iff

/-! ## Conditions on a field -/

/-- The condition for one operator on the value at a path. -/
def ofOperator (path operator : String) (operand : Bson) : Except StoreFault Filter :=
  if operator = "$exists" then .ok (.presence path (asksPresence operand))
  else if operator = "$not" then (ofCondition path operand).map .negation
  else
    match Comparison.ofOperator? operator with
    | some comparison => .ok (.field path comparison operand)
    | none => .error (.unsupportedOperator operator)

/-- Every operator gives one condition, in order. -/
theorem ofOperators_cons_eq_ok_iff {path operator : String} {operand : Bson} {rest : Document}
    {parts : List Filter} :
    ofOperators path ((operator, operand) :: rest) = .ok parts ↔
      ∃ part others, ofOperator path operator operand = .ok part ∧
        ofOperators path rest = .ok others ∧ parts = part :: others :=
  cons_eq_ok_iff

theorem exists_ofOperator_of_mem {path : String} {operators : Document} {parts : List Filter}
    (h : ofOperators path operators = .ok parts) :
    ∀ entry ∈ operators, ∃ part, ofOperator path entry.1 entry.2 = .ok part := by
  refine exists_of_mem (fun first rest parts hparts => ?_) h
  obtain ⟨part, others, hpart, hothers, -⟩ := ofOperators_cons_eq_ok_iff.1 hparts
  exact ⟨part, others, hpart, hothers⟩

/-- An operator asks for presence, negates its operand or compares. -/
theorem ofOperator_cases {path operator : String} {operand : Bson} {part : Filter}
    (h : ofOperator path operator operand = .ok part) :
    (operator = "$exists" ∧ part = .presence path (asksPresence operand)) ∨
      (operator = "$not" ∧ ∃ negated, ofCondition path operand = .ok negated ∧
        part = .negation negated) ∨
      ∃ comparison, Comparison.ofOperator? operator = some comparison ∧
        part = .field path comparison operand := by
  unfold ofOperator at h
  split at h
  · rename_i hoperator
    exact .inl ⟨hoperator, (Except.ok.inj h).symm⟩
  · split at h
    · rename_i hoperator
      exact .inr (.inl ⟨hoperator, map_eq_ok_iff.1 h⟩)
    · split at h
      · rename_i comparison hcomparison
        exact .inr (.inr ⟨comparison, hcomparison, (Except.ok.inj h).symm⟩)
      · cases h

/-- The comparisons and their operators. -/
theorem ofOperator?_cases {operator : String} {comparison : Comparison}
    (h : Comparison.ofOperator? operator = some comparison) :
    (operator, comparison) ∈ [("$eq", Comparison.equal), ("$ne", .notEqual), ("$gt", .greater),
      ("$gte", .greaterOrEqual), ("$lt", .less), ("$lte", .lessOrEqual), ("$in", .among),
      ("$nin", .notAmong)] :=
  Assoc.mem_of_get?_eq_some h

/-- Every operator starts with a dollar sign. -/
theorem startsWithDollar_of_ofOperator {path operator : String} {operand : Bson} {part : Filter}
    (h : ofOperator path operator operand = .ok part) :
    Text.startsWithDollar operator = true := by
  rcases ofOperator_cases h with ⟨rfl, -⟩ | ⟨rfl, -⟩ | ⟨comparison, hcomparison, -⟩
  · decide
  · decide
  · have hdollar : ∀ entry ∈ [("$eq", Comparison.equal), ("$ne", .notEqual), ("$gt", .greater),
        ("$gte", .greaterOrEqual), ("$lt", .less), ("$lte", .lessOrEqual), ("$in", .among),
        ("$nin", .notAmong)], Text.startsWithDollar entry.1 = true := by decide
    exact hdollar _ (ofOperator?_cases hcomparison)

/-! ## Filters with one condition -/

/-- A filter document with one entry is the condition for it. -/
theorem ofDocument_singleton {key : String} {value : Bson} {part : Filter}
    (h : ofEntry key value = .ok part) : ofDocument [(key, value)] = .ok part := by
  have hentries : ofEntries [(key, value)] = .ok [part] :=
    ofEntries_cons_eq_ok_iff.2 ⟨part, [], h, rfl, rfl⟩
  rw [ofDocument, hentries]
  rfl

/-- An entry with a plain name is a condition on a field. -/
theorem ofEntry_of_plain {path : String} (hplain : Text.startsWithDollar path = false)
    (value : Bson) : ofEntry path value = ofCondition path value := by
  have hand : path ≠ "$and" := ne_of_plain hplain (by decide)
  have hor : path ≠ "$or" := ne_of_plain hplain (by decide)
  have hnor : path ≠ "$nor" := ne_of_plain hplain (by decide)
  rw [ofEntry, if_neg hand, if_neg hor, if_neg hnor, hplain, if_neg Bool.false_ne_true]

/-- A condition without an operator is an equality. -/
theorem ofCondition_of_no_operator {path : String} {value : Bson}
    (h : ∀ entries, value = .document entries → hasOperator entries = false) :
    ofCondition path value = .ok (.field path .equal value) := by
  cases value with
  | document entries => rw [ofCondition, h entries rfl, if_neg Bool.false_ne_true]
  | _ => rfl

/-- A condition with one operator is the condition for it. -/
theorem ofCondition_operator {path operator : String} {operand : Bson} {part : Filter}
    (h : ofOperator path operator operand = .ok part) :
    ofCondition path (.document [(operator, operand)]) = .ok part := by
  have hoperator : hasOperator [(operator, operand)] = true := by
    rw [hasOperator, List.any_cons, startsWithDollar_of_ofOperator h, Bool.true_or]
  have hoperators : ofOperators path [(operator, operand)] = .ok [part] :=
    ofOperators_cons_eq_ok_iff.2 ⟨part, [], h, rfl, rfl⟩
  rw [ofCondition, if_pos hoperator, hoperators]
  rfl

/-- A field with one comparison. -/
theorem ofDocument_comparison {path operator : String} {comparison : Comparison}
    (hplain : Text.startsWithDollar path = false)
    (h : Comparison.ofOperator? operator = some comparison) (operand : Bson) :
    ofDocument [(path, .document [(operator, operand)])] =
      .ok (.field path comparison operand) := by
  have hoperator : ofOperator path operator operand = .ok (.field path comparison operand) := by
    have hexists : operator ≠ "$exists" := by
      rintro rfl
      cases h
    have hnot : operator ≠ "$not" := by
      rintro rfl
      cases h
    rw [ofOperator, if_neg hexists, if_neg hnot, h]
  exact ofDocument_singleton
    ((ofEntry_of_plain hplain _).trans (ofCondition_operator hoperator))

/-- A field with a value that is compared as a whole. -/
theorem ofDocument_value {path : String} {value : Bson}
    (hplain : Text.startsWithDollar path = false)
    (h : ∀ entries, value = .document entries → hasOperator entries = false) :
    ofDocument [(path, value)] = .ok (.field path .equal value) :=
  ofDocument_singleton ((ofEntry_of_plain hplain value).trans (ofCondition_of_no_operator h))

end Filter

end DocGate
