import DocGate.Projection.Resolve
import DocGate.Proofs.Grammar.Admission

/-!
# What a request resolves to

`Projection.resolve` goes through parts of a projection, which it collects one
after the other.  Here the results are said directly.

* Under columns that restrict something, a field may be read if it is listed.
* A list of names, each added as a part of its own, comes to the projection
  that includes these names (`Projection.ofParts_field`).
* `Projection.resolve_cases` says everything that a request without fault can
  resolve to: one case for each way of selecting fields.
-/

namespace DocGate

/-! ## Columns -/

namespace Columns

variable {columns : Columns}

theorem contains_eq_true_iff {name : String} :
    columns.contains name = true ↔ name ∈ columns.names :=
  List.contains_iff_mem

theorem isUnrestricted_eq_true_iff : columns.isUnrestricted = true ↔ columns.names = [] := by
  rw [isUnrestricted, List.isEmpty_iff]

theorem isUnrestricted_eq_false_iff : columns.isUnrestricted = false ↔ columns.names ≠ [] := by
  rw [isUnrestricted, List.isEmpty_eq_false_iff]

/-- A field may be read if nothing is restricted or it is listed. -/
theorem allows_eq_true_iff {name : String} :
    columns.allows name = true ↔ columns.names = [] ∨ name ∈ columns.names := by
  rw [allows, Bool.or_eq_true, isUnrestricted_eq_true_iff, contains_eq_true_iff]

/-- Under a restriction a field may be read if it is listed. -/
theorem allows_eq_contains (h : columns.names ≠ []) (name : String) :
    columns.allows name = columns.contains name := by
  rw [allows, isUnrestricted_eq_false_iff.2 h, Bool.false_or]

end Columns

namespace Projection

/-- Under a restriction a raw projection may refer to the listed columns. -/
theorem readable_eq_contains {columns : Columns} (h : columns.names ≠ []) (fieldNames : List String) :
    readable fieldNames columns = columns.contains := by
  funext name
  rw [readable, Columns.isUnrestricted_eq_false_iff.2 h]
  rfl

/-! ## Parts that include a field -/

/-- The projection that includes some fields. -/
def ofNames (names : List String) : Projection :=
  ofEntries ((withoutRepeats [] names).map fun name => (name, inclusion))

/-- Including a field again changes nothing. -/
theorem set_inclusion_of_mem {names : List String} {name : String} (h : name ∈ names) :
    Assoc.set (names.map fun included => (included, inclusion)) name inclusion =
      names.map fun included => (included, inclusion) := by
  induction names with
  | nil => simp at h
  | cons first rest ih =>
    rw [List.map_cons, Assoc.set]
    split
    · rfl
    · rename_i hne
      rcases List.mem_cons.1 h with rfl | hrest
      · exact absurd rfl hne
      · rw [ih hrest]

/-- Fields added one after the other are included once each, in the order in
which they occur first. -/
theorem foldl_addTo_field (names collected : List String) :
    (names.map ProjectionPart.field).foldl ProjectionPart.addTo
        (collected.map fun name => (name, inclusion)) =
      (collected ++ withoutRepeats collected names).map fun name => (name, inclusion) := by
  induction names generalizing collected with
  | nil => simp [withoutRepeats]
  | cons name rest ih =>
    rw [List.map_cons, List.foldl_cons, ProjectionPart.addTo, withoutRepeats]
    split
    · rename_i hmem
      rw [set_inclusion_of_mem hmem]
      exact ih collected
    · rename_i hnew
      have hkeys : name ∉ Assoc.keys (collected.map fun included => (included, inclusion)) := by
        simpa [Assoc.keys] using hnew
      have hset : Assoc.set (collected.map fun included => (included, inclusion)) name inclusion =
          (collected ++ [name]).map fun included => (included, inclusion) := by
        rw [Assoc.set_of_not_mem_keys hkeys, List.map_append]
        rfl
      have hseen : withoutRepeats (collected ++ [name]) rest =
          withoutRepeats (name :: collected) rest :=
        withoutRepeats_congr (fun a => by simp [or_comm]) rest
      rw [hset, ih, hseen, List.append_assoc]
      rfl

/-- Parts that include a field each come to the projection that includes the
fields. -/
theorem ofParts_field (names : List String) :
    ofParts (names.map ProjectionPart.field) = ofNames names := by
  have hfold := foldl_addTo_field names []
  rw [List.nil_append] at hfold
  rw [ofParts, ofNames, ← hfold]
  rfl

/-- Every entry of the projection that includes some fields includes one of
them, unless there are none. -/
theorem ofNames_cases (names : List String) :
    ofNames names = idOnly ∨
      (ofNames names).entries ≠ [] ∧
        ∀ entry ∈ (ofNames names).entries, entry.1 ∈ names ∧ entry.2 = inclusion := by
  unfold ofNames ofEntries
  split
  · exact .inl rfl
  · rename_i hne
    refine .inr ⟨fun h => hne (by simpa using h), ?_⟩
    intro entry hentry
    obtain ⟨name, hname, rfl⟩ := List.mem_map.1 hentry
    exact ⟨((mem_withoutRepeats_iff [] names name).1 hname).1, rfl⟩

/-! ## Raw projections -/

/-- The entries of a projection of entries are these, unless it fell back to
the identifier. -/
theorem ofEntries_cases (entries : Document) :
    ofEntries entries = idOnly ∨ (ofEntries entries).entries = entries := by
  unfold ofEntries
  split
  · exact .inl rfl
  · exact .inr rfl

/-- The entries that the columns let pass. -/
def passing (columns : Columns) (entries : Document) : Document :=
  entries.filter fun entry => permits columns entry.1 entry.2

/-- When the entries of a raw projection are accepted, and what is left of
them. -/
theorem permittedEntries_eq_ok_iff {columns : Columns} {entries permitted : Document} :
    permittedEntries columns entries = .ok permitted ↔
      excludedColumn? columns entries = none ∧ permitted = passing columns entries ∧
        ¬ (permitted ≠ [] ∧ columns.names ≠ [] ∧
          ∀ entry ∈ permitted, selectsWithin entry.2 = true) := by
  rw [permittedEntries]
  cases excludedColumn? columns entries with
  | some column => simp
  | none =>
    have hselectors : (!(passing columns entries).isEmpty && !columns.isUnrestricted &&
          (passing columns entries).all fun entry => selectsWithin entry.2) = true ↔
        passing columns entries ≠ [] ∧ columns.names ≠ [] ∧
          ∀ entry ∈ passing columns entries, selectsWithin entry.2 = true := by
      simp only [Bool.and_eq_true, Bool.not_eq_true', List.isEmpty_eq_false_iff,
        Columns.isUnrestricted_eq_false_iff, List.all_eq_true, and_assoc]
    simp only [passing] at hselectors ⊢
    split
    · rename_i hall
      refine iff_of_false (by simp) ?_
      rintro ⟨-, rfl, hnot⟩
      exact hnot (hselectors.1 hall)
    · rename_i hnot
      constructor
      · intro hok
        obtain rfl := Except.ok.inj hok
        exact ⟨trivial, rfl, fun h => hnot (hselectors.2 h)⟩
      · rintro ⟨-, rfl, -⟩
        rfl

/-- When a raw projection is accepted, and the parts it comes to. -/
theorem rawParts_eq_ok_iff {fieldNames : List String} {columns : Columns} {raw : String}
    {parts : List ProjectionPart} :
    rawParts fieldNames columns raw = .ok parts ↔
      ∃ entries, FragmentKind.projection.toDocument (readable fieldNames columns) raw =
          .ok entries ∧
        ∃ permitted, permittedEntries columns entries = .ok permitted ∧
          parts = [.entries permitted] := by
  unfold rawParts
  cases FragmentKind.projection.toDocument (readable fieldNames columns) raw with
  | error fault => simp
  | ok entries =>
    simp only [Except.ok.injEq, exists_eq_left']
    cases permittedEntries columns entries with
    | error fault => simp
    | ok permitted => simp [eq_comm]

/-- A part that takes over entries with different names comes to these entries. -/
theorem ofParts_entries {entries : Document} (h : entries.Distinct) :
    ofParts [.entries entries] = ofEntries entries := by
  have hself : Assoc.setAll [] entries = entries := Assoc.ofList_eq_self h
  show ofEntries (Assoc.setAll [] entries) = ofEntries entries
  rw [hself]

theorem distinct_passing {columns : Columns} {entries : Document} (h : entries.Distinct) :
    (passing columns entries).Distinct := by
  have hsub : (passing columns entries).Sublist entries := List.filter_sublist
  exact h.sublist (hsub.map Prod.fst)

end Projection

/-! ## All requests -/

/-- The result of a request is that of its raw projection, which is not blank
and comes without a field list. -/
def ProjectionRequest.IsRaw (request : ProjectionRequest) : Prop :=
  Text.unlessBlank? request.fields = none ∧ Text.unlessBlank? request.raw ≠ none

namespace Projection

/-- Everything that a request without fault can resolve to: the listed fields
that may be read, what the columns leave of a raw projection, or all fields
that may be read. -/
theorem resolve_cases {fieldNames : List String} {request : ProjectionRequest}
    {projection : Projection} (h : resolve fieldNames request = .ok projection) :
    (∃ fields, Text.unlessBlank? request.fields = some fields ∧
        projection = ofNames ((Text.listItems fields).filter
          (Columns.ofText request.columns).allows)) ∨
      (∃ raw entries, Text.unlessBlank? request.fields = none ∧
        Text.unlessBlank? request.raw = some raw ∧
        FragmentKind.projection.toDocument
            (readable fieldNames (Columns.ofText request.columns)) raw = .ok entries ∧
        permittedEntries (Columns.ofText request.columns) entries =
            .ok (passing (Columns.ofText request.columns) entries) ∧
        projection = ofEntries (passing (Columns.ofText request.columns) entries)) ∨
      (Text.unlessBlank? request.fields = none ∧ Text.unlessBlank? request.raw = none ∧
        projection = ofNames (fieldNames.filter (Columns.ofText request.columns).allows)) := by
  unfold resolve requestedParts at h
  split at h
  · simp at h
  · rename_i parts hparts
    obtain rfl : ofParts parts = projection := by simpa using h
    simp only at hparts
    split at hparts
    · simp at hparts
    · split at hparts
      · rename_i fields hfields
        obtain rfl := Except.ok.inj hparts
        exact .inl ⟨fields, hfields, ofParts_field _⟩
      · rename_i raw hfields hraw
        obtain ⟨entries, hread, permitted, hpermitted, rfl⟩ := rawParts_eq_ok_iff.1 hparts
        obtain ⟨-, rfl, -⟩ := permittedEntries_eq_ok_iff.1 hpermitted
        have hdistinct := @distinct_passing (Columns.ofText request.columns) _
          (FragmentKind.distinct_of_toDocument hread)
        exact .inr (.inl ⟨raw, entries, hfields, hraw, hread, hpermitted,
          ofParts_entries hdistinct⟩)
      · rename_i hfields hraw
        obtain rfl := Except.ok.inj hparts
        exact .inr (.inr ⟨hfields, hraw, ofParts_field _⟩)

/-- What a raw projection resolves to is a part of the document that has been
checked, or the identifier. -/
theorem exists_toDocument_of_resolve {fieldNames : List String} {request : ProjectionRequest}
    {projection : Projection} (h : resolve fieldNames request = .ok projection)
    (hraw : request.IsRaw) :
    ∃ raw entries, Text.unlessBlank? request.raw = some raw ∧
      FragmentKind.projection.toDocument
        (readable fieldNames (Columns.ofText request.columns)) raw = .ok entries ∧
      (projection = idOnly ∨ projection.entries.Sublist entries) := by
  rcases resolve_cases h with ⟨fields, hfields, -⟩ | ⟨raw, entries, -, htext, hread, -, rfl⟩ |
    ⟨-, hnone, -⟩
  · rw [hraw.1] at hfields
    cases hfields
  · refine ⟨raw, entries, htext, hread, ?_⟩
    rcases ofEntries_cases (passing (Columns.ofText request.columns) entries) with hid | hentries
    · exact .inl hid
    · rw [hentries]
      exact .inr List.filter_sublist
  · exact absurd hnone hraw.2

/-- A raw projection that is accepted resolves to what the columns leave of
it. -/
theorem resolve_eq_ok_of_raw {fieldNames : List String} {acl : Option String} {raw : String}
    {entries : Document} (hblank : Text.isAllBlank raw = false)
    (hread : FragmentKind.projection.toDocument (readable fieldNames (Columns.ofText acl)) raw =
      .ok entries)
    (hpermitted : permittedEntries (Columns.ofText acl) entries =
      .ok (passing (Columns.ofText acl) entries)) :
    resolve fieldNames { columns := acl, raw := some raw } =
      .ok (ofEntries (passing (Columns.ofText acl) entries)) := by
  have hraw : Text.unlessBlank? (some raw) = some raw := by simp [Text.unlessBlank?, hblank]
  have hfields : Text.unlessBlank? none = none := rfl
  have hparts : rawParts fieldNames (Columns.ofText acl) raw =
      .ok [.entries (passing (Columns.ofText acl) entries)] :=
    rawParts_eq_ok_iff.2 ⟨entries, hread, _, hpermitted, rfl⟩
  have hdistinct := @distinct_passing (Columns.ofText acl) _
    (FragmentKind.distinct_of_toDocument hread)
  simp only [resolve, requestedParts, ProjectionRequest.isAmbiguous, Option.any_none,
    Bool.false_and, Bool.false_eq_true, if_false, hraw, hfields, hparts,
    ofParts_entries hdistinct]

end Projection

end DocGate
