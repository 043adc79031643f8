import Mathlib.Logic.Basic
import DocGate.Proofs.Projection.Outcome

/-!
# Confinement to the readable columns

What a caller who is restricted to some columns gets out of
`Projection.resolve`.  `Projection.Confined` says what makes a projection
harmless: it is no list of exclusions and no list of selectors, which the store
would answer with the other fields, and whatever it takes from a document as it
stands, by an inclusion or by a selector, it takes from a readable column.

* `Projection.FieldSelector` describes the values that select within a field,
  and `selectsWithin_eq_true_iff` says that the test for them is right.
* `Projection.Survives` is the rule for an entry of a raw projection, and
  `permits_eq_true_iff` says that the columns follow it.
* `Projection.confined_of_resolve` is the confinement of every result, by the
  three ways of selecting fields.
* `Projection.allowsText_of_resolve` adds that a raw projection keeps none but
  checked texts.
-/

namespace DocGate

/-- A key stays within the columns: it is one of them, or it leads into one. -/
def Columns.Covers (columns : Columns) (key : String) : Prop :=
  key ∈ columns.names ∨ Text.pathRoot key ∈ columns.names

namespace Projection

/-! ## Selectors -/

/-- The values that select within the field that they are keyed by: an empty
document, a selection operator, or a nested projection. -/
inductive FieldSelector : Bson → Prop
  | empty : FieldSelector (.document [])
  | operator {key : String} {operand : Bson} {rest : Document}
      (hkey : key = "$slice" ∨ key = "$elemMatch") :
      FieldSelector (.document ((key, operand) :: rest))
  | nested {key : String} {value : Bson} {rest : Document}
      (hkey : Text.startsWithDollar key = false) :
      FieldSelector (.document ((key, value) :: rest))

/-- The test for selectors is right. -/
theorem selectsWithin_eq_true_iff {value : Bson} :
    selectsWithin value = true ↔ FieldSelector value := by
  constructor
  · intro h
    unfold selectsWithin at h
    split at h
    · exact .empty
    · rename_i key _ _
      simp only [Bool.or_eq_true, Bool.not_eq_true'] at h
      rcases h with hop | hnested
      · exact .operator (by simpa [selectionOperators] using hop)
      · exact .nested hnested
    · cases h
  · intro h
    cases h with
    | empty => rfl
    | operator hkey => rcases hkey with rfl | rfl <;> rfl
    | nested hkey => simp [selectsWithin, hkey]

/-- A marker selects nothing within its field. -/
theorem not_fieldSelector_inclusion : ¬ FieldSelector inclusion := by
  intro h
  cases h

/-! ## Entries that survive -/

/-- The values that compute a new field. -/
def IsComputed (value : Bson) : Prop :=
  value ≠ .null ∧ marker? value = none ∧ ¬ FieldSelector value

/-- The entries that columns leave of a raw projection.  Null never survives.  Everything
else does where nothing is restricted; under a restriction inclusions and selectors need a
readable column, computed values need none, and exclusions are dropped. -/
inductive Survives (columns : Columns) : String → Bson → Prop
  | unrestricted {key : String} {value : Bson} (hcolumns : columns.names = [])
      (hvalue : value ≠ .null) : Survives columns key value
  | inclusion {key : String} {value : Bson} (hmarker : marker? value = some true)
      (hroot : Text.pathRoot key ∈ columns.names) : Survives columns key value
  | selector {key : String} {value : Bson} (hselector : FieldSelector value)
      (hroot : Text.pathRoot key ∈ columns.names) : Survives columns key value
  | computed {key : String} {value : Bson} (hcomputed : IsComputed value) :
      Survives columns key value

variable {columns : Columns} {key : String} {value : Bson}

theorem FieldSelector.ne_null (h : FieldSelector value) : value ≠ .null := by
  intro hnull
  rw [hnull] at h
  cases h

theorem FieldSelector.marker?_eq_none (h : FieldSelector value) : marker? value = none := by
  cases h <;> rfl

theorem ne_null_of_marker {included : Bool} (h : marker? value = some included) :
    value ≠ .null := by
  intro hnull
  rw [hnull] at h
  cases h

theorem Survives.ne_null (h : Survives columns key value) : value ≠ .null := by
  cases h with
  | unrestricted _ hvalue => exact hvalue
  | inclusion hmarker _ => exact ne_null_of_marker hmarker
  | selector hselector _ => exact hselector.ne_null
  | computed hcomputed => exact hcomputed.1

/-- Under a restriction the marker of an entry, or that it has none, says which columns
it needs. -/
theorem survives_restricted_iff (hcolumns : columns.names ≠ []) (hvalue : value ≠ .null) :
    Survives columns key value ↔
      match marker? value with
      | some included => included = true ∧ Text.pathRoot key ∈ columns.names
      | none => FieldSelector value → Text.pathRoot key ∈ columns.names := by
  constructor
  · intro h
    cases h with
    | unrestricted hnone _ => exact absurd hnone hcolumns
    | inclusion hmarker hroot =>
      rw [hmarker]
      exact ⟨rfl, hroot⟩
    | selector hselector hroot =>
      rw [hselector.marker?_eq_none]
      exact fun _ => hroot
    | computed hcomputed =>
      rw [hcomputed.2.1]
      exact fun hselector => absurd hselector hcomputed.2.2
  · intro h
    cases hmarker : marker? value with
    | some included =>
      rw [hmarker] at h
      obtain ⟨rfl, hroot⟩ := h
      exact .inclusion hmarker hroot
    | none =>
      rw [hmarker] at h
      by_cases hselector : FieldSelector value
      · exact .selector hselector (h hselector)
      · exact .computed ⟨hvalue, hmarker, hselector⟩

/-- The columns let an entry pass just where it survives. -/
theorem permits_eq_true_iff : permits columns key value = true ↔ Survives columns key value := by
  unfold permits
  split
  · exact iff_of_false Bool.false_ne_true fun h => h.ne_null rfl
  · rename_i hvalue
    split
    · rename_i hunrestricted
      exact iff_of_true rfl
        (.unrestricted (Columns.isUnrestricted_eq_true_iff.1 hunrestricted) hvalue)
    · rename_i hrestricted
      rw [Columns.isUnrestricted_eq_true_iff] at hrestricted
      rw [survives_restricted_iff hrestricted hvalue]
      cases marker? value with
      | some included => rw [Bool.and_eq_true, Columns.contains_eq_true_iff]
      | none =>
        rw [Bool.or_eq_true, Bool.not_eq_true', Columns.contains_eq_true_iff,
          ← selectsWithin_eq_true_iff, imp_iff_not_or, Bool.not_eq_true]

instance (columns : Columns) (key : String) (value : Bson) :
    Decidable (Survives columns key value) :=
  decidable_of_iff _ permits_eq_true_iff

/-! ## Confined projections -/

/-- A projection that shows a caller no more than the columns: it has entries,
none of them excludes its path, those that take something from the document as
it stands are keyed by a readable column, and not all of them select within a
field. -/
structure Confined (columns : Columns) (projection : Projection) : Prop where
  entries_ne_nil : projection.entries ≠ []
  no_exclusion : ∀ entry ∈ projection.entries, marker? entry.2 ≠ some false
  covered : ∀ entry ∈ projection.entries,
    marker? entry.2 = some true ∨ FieldSelector entry.2 → columns.Covers entry.1
  not_only_selectors : ∃ entry ∈ projection.entries, ¬ FieldSelector entry.2

/-- Including columns only is confined. -/
theorem confined_ofNames {columns : Columns} {names : List String}
    (h : ∀ name ∈ names, name ∈ columns.names) :
    ofNames names = idOnly ∨ Confined columns (ofNames names) := by
  rcases ofNames_cases names with hid | ⟨hne, hentries⟩
  · exact .inl hid
  · refine .inr ⟨hne, ?_, ?_, ?_⟩
    · intro entry hentry
      rw [(hentries entry hentry).2]
      decide
    · intro entry hentry _
      exact .inl (h entry.1 (hentries entry hentry).1)
    · obtain ⟨entry, hentry⟩ := List.exists_mem_of_ne_nil _ hne
      refine ⟨entry, hentry, ?_⟩
      rw [(hentries entry hentry).2]
      exact not_fieldSelector_inclusion

/-- What survives under a restriction excludes nothing, and takes what it takes
as it stands from a readable column. -/
theorem covered_of_survives (hcolumns : columns.names ≠ [])
    (h : Survives columns key value) :
    marker? value ≠ some false ∧
      (marker? value = some true ∨ FieldSelector value → columns.Covers key) := by
  cases h with
  | unrestricted hnone _ => exact absurd hnone hcolumns
  | inclusion hmarker hroot => exact ⟨by simp [hmarker], fun _ => .inr hroot⟩
  | selector hselector hroot =>
    exact ⟨by simp [hselector.marker?_eq_none], fun _ => .inr hroot⟩
  | computed hcomputed =>
    obtain ⟨-, hnone, hplain⟩ := hcomputed
    refine ⟨by simp [hnone], fun hshown => ?_⟩
    rcases hshown with hmarker | hselector
    · rw [hnone] at hmarker
      cases hmarker
    · exact absurd hselector hplain

/-- What is left of an accepted raw projection is confined. -/
theorem confined_passing {columns : Columns} {entries : Document}
    (hcolumns : columns.names ≠ [])
    (h : permittedEntries columns entries = .ok (passing columns entries)) :
    ofEntries (passing columns entries) = idOnly ∨
      Confined columns (ofEntries (passing columns entries)) := by
  obtain ⟨-, -, hselectors⟩ := permittedEntries_eq_ok_iff.1 h
  unfold ofEntries
  split
  · exact .inl rfl
  · rename_i hempty
    have hne : passing columns entries ≠ [] := fun hnil => hempty (by rw [hnil]; rfl)
    have hsurvives : ∀ entry ∈ passing columns entries, Survives columns entry.1 entry.2 :=
      fun entry hentry => permits_eq_true_iff.1 (List.mem_filter.1 hentry).2
    refine .inr ⟨hne, ?_, ?_, ?_⟩
    · intro entry hentry
      exact (covered_of_survives hcolumns (hsurvives entry hentry)).1
    · intro entry hentry
      exact (covered_of_survives hcolumns (hsurvives entry hentry)).2
    · refine Classical.byContradiction fun hnone => hselectors ⟨hne, hcolumns, ?_⟩
      intro entry hentry
      refine selectsWithin_eq_true_iff.2 (Classical.byContradiction fun hnot => ?_)
      exact hnone ⟨entry, hentry, hnot⟩

/-! ## Results of requests -/

variable {fieldNames : List String} {request : ProjectionRequest} {projection : Projection}

/-- Every way of selecting fields ends within the columns. -/
theorem confined_of_resolve (hcolumns : (Columns.ofText request.columns).names ≠ [])
    (h : resolve fieldNames request = .ok projection) :
    projection = idOnly ∨ Confined (Columns.ofText request.columns) projection := by
  have hallowed : ∀ names : List String,
      ∀ name ∈ names.filter (Columns.ofText request.columns).allows,
        name ∈ (Columns.ofText request.columns).names := by
    intro names name hname
    have hallows := (List.mem_filter.1 hname).2
    rw [Columns.allows_eq_contains hcolumns] at hallows
    exact Columns.contains_eq_true_iff.1 hallows
  rcases resolve_cases h with ⟨fields, -, rfl⟩ | ⟨raw, entries, -, -, -, hpermitted, rfl⟩ |
    ⟨-, -, rfl⟩
  · exact confined_ofNames (hallowed _)
  · exact confined_passing hcolumns hpermitted
  · exact confined_ofNames (hallowed _)

/-- Every text in the result of a raw projection has been checked against the
columns. -/
theorem allowsText_of_resolve (hcolumns : (Columns.ofText request.columns).names ≠ [])
    (h : resolve fieldNames request = .ok projection) (hraw : request.IsRaw) :
    projection = idOnly ∨ ∀ text ∈ Bson.entriesTexts projection.entries,
      FragmentKind.projection.AllowsText (Columns.ofText request.columns).contains text := by
  obtain ⟨raw, entries, -, hread, hid | hentries⟩ := exists_toDocument_of_resolve h hraw
  · exact .inl hid
  · rw [readable_eq_contains hcolumns] at hread
    exact .inr fun text htext => FragmentKind.allowsText_of_toDocument hread text
      (Bson.entriesTexts_subset hentries.subset text htext)

/-- A caller who is restricted to columns gets the identifier or a confined
projection.  If it comes from a raw projection, every dollar token in its keys
and strings, at every depth, has one dollar sign and is an operator of
projections or a column. -/
theorem resolve_confined (fieldNames : List String) (request : ProjectionRequest)
    (projection : Projection) (hcolumns : (Columns.ofText request.columns).names ≠ [])
    (h : resolve fieldNames request = .ok projection) :
    projection = idOnly ∨
      Confined (Columns.ofText request.columns) projection ∧
        (request.IsRaw → ∀ text ∈ Bson.entriesTexts projection.entries,
          ∀ token ∈ Token.ofText text, ∃ name, token = .dollar name ∧
            ("$" ++ name ∈ Operators.ofProjections ∨
              name ∈ (Columns.ofText request.columns).names)) := by
  rcases confined_of_resolve hcolumns h with hid | hconfined
  · exact .inl hid
  · rcases Classical.em (projection = idOnly) with hid | hnot
    · exact .inl hid
    · refine .inr ⟨hconfined, fun hraw text htext token htoken => ?_⟩
      have hallowed := (allowsText_of_resolve hcolumns h hraw).resolve_left hnot
      have htoken := hallowed text htext token htoken
      cases token with
      | dollar name =>
        rcases htoken with hoperator | hcolumn
        · exact ⟨name, rfl, .inl (List.contains_iff_mem.1 hoperator)⟩
        · exact ⟨name, rfl, .inr (Columns.contains_eq_true_iff.1 hcolumn)⟩
      | «variable» name => exact htoken.elim

/-- An inclusion, a dropped inclusion, a selector and a computed field under
two columns. -/
theorem resolve_confined_mixed :
    (Columns.ofText (some "a, c")).names ≠ [] ∧
      resolve []
          { columns := some "a, c"
            raw := some
              "\x7b\"a\":1,\"b\":1,\"c.d\":\x7b\"$slice\":2\x7d,\"e\":[\"$a\"]\x7d" } =
        .ok ⟨[("a", .int32 1), ("c.d", .document [("$slice", .int32 2)]),
          ("e", .array [.string "$a"])]⟩ ∧
      Confined (Columns.ofText (some "a, c"))
        ⟨[("a", .int32 1), ("c.d", .document [("$slice", .int32 2)]),
          ("e", .array [.string "$a"])]⟩ := by
  refine (fun hcolumns hresolve => ⟨hcolumns, hresolve, ?confined⟩) ?columns ?resolve
  case columns => decide +kernel
  case resolve => decide +kernel
  case confined =>
    rcases resolve_confined [] _ _ hcolumns hresolve with hid | ⟨hconfined, -⟩
    · simp [idOnly] at hid
    · exact hconfined

end Projection

end DocGate
