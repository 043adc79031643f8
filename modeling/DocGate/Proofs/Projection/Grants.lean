import DocGate.Proofs.Projection.Survivors

/-!
# Projections under different columns

How the result of a request depends on the columns that its caller may read.

* Only which columns are listed matters, not their order or how often they stand in the
  list.  `Columns.SameAs` relates two lists of the same columns, and every test that
  `Projection.resolve` makes of columns has one answer for both, so it has one result
  (`Projection.resolve_congr`).
* A further column takes nothing away.  An entry that survives under some columns
  survives under more (`Projection.Survives.mono`), for each way of selecting fields
  (`Projection.survivors_subset`).
-/

namespace DocGate

namespace Columns

/-- The columns of a list are the items that stand in it. -/
theorem mem_ofText_iff {text : Option String} {name : String} :
    name ∈ (ofText text).names ↔ name ∈ Text.listItems (text.getD "") := by
  rw [ofText, mem_withoutRepeats_iff]
  exact and_iff_left List.not_mem_nil

theorem ofText_ne_nil_iff {text : Option String} :
    (ofText text).names ≠ [] ↔ Text.listItems (text.getD "") ≠ [] := by
  simp only [ne_eq, List.eq_nil_iff_forall_not_mem, mem_ofText_iff]

/-- Whether the same columns are listed. -/
def SameAs (columns others : Columns) : Prop :=
  ∀ name, name ∈ columns.names ↔ name ∈ others.names

namespace SameAs

variable {columns others : Columns}

theorem contains_eq (h : columns.SameAs others) : columns.contains = others.contains := by
  funext name
  rw [Bool.eq_iff_iff, contains_eq_true_iff, contains_eq_true_iff]
  exact h name

theorem isUnrestricted_eq (h : columns.SameAs others) :
    columns.isUnrestricted = others.isUnrestricted := by
  rw [Bool.eq_iff_iff, isUnrestricted_eq_true_iff, isUnrestricted_eq_true_iff,
    List.eq_nil_iff_forall_not_mem, List.eq_nil_iff_forall_not_mem]
  exact forall_congr' fun name => not_congr (h name)

theorem allows_eq (h : columns.SameAs others) : columns.allows = others.allows := by
  funext name
  rw [allows, allows, h.contains_eq, h.isUnrestricted_eq]

end SameAs

end Columns

namespace Projection

/-! ## The same columns -/

section SameColumns

variable {columns others : Columns} (h : columns.SameAs others)

include h

theorem readable_congr (fieldNames : List String) :
    readable fieldNames columns = readable fieldNames others := by
  funext name
  rw [readable, readable, h.isUnrestricted_eq, h.contains_eq]

theorem permits_congr (key : String) (value : Bson) :
    permits columns key value = permits others key value := by
  unfold permits
  rw [h.isUnrestricted_eq, h.contains_eq]

theorem permittedEntries_congr (entries : Document) :
    permittedEntries columns entries = permittedEntries others entries := by
  have hpermits : ∀ entry : String × Bson,
      permits columns entry.1 entry.2 = permits others entry.1 entry.2 :=
    fun entry => permits_congr h entry.1 entry.2
  simp only [permittedEntries, excludedColumn?, h.contains_eq, h.isUnrestricted_eq, hpermits]

theorem rawParts_congr (fieldNames : List String) (text : String) :
    rawParts fieldNames columns text = rawParts fieldNames others text := by
  simp only [rawParts, readable_congr h, permittedEntries_congr h]

end SameColumns

/-- A request has one result for two lists of the same columns. -/
theorem resolve_congr {acl others : Option String}
    (h : (Columns.ofText acl).SameAs (Columns.ofText others)) (fieldNames : List String)
    (fields raw : Option String) :
    resolve fieldNames ⟨fields, acl, raw⟩ = resolve fieldNames ⟨fields, others, raw⟩ := by
  have hparts : requestedParts fieldNames ⟨fields, acl, raw⟩ =
      requestedParts fieldNames ⟨fields, others, raw⟩ := by
    simp only [requestedParts, listParts, defaultParts, h.allows_eq, rawParts_congr h]
    -- whether two selections come together does not depend on the columns
    rfl
  rw [resolve, resolve, hparts]

/-! ## More columns -/

section MoreColumns

variable {columns more : Columns}

/-- An entry that survives under a restriction survives under more columns. -/
theorem Survives.mono {key : String} {value : Bson} (hcolumns : columns.names ≠ [])
    (hmore : ∀ name ∈ columns.names, name ∈ more.names) (h : Survives columns key value) :
    Survives more key value := by
  cases h with
  | unrestricted hnone _ => exact absurd hnone hcolumns
  | inclusion hmarker hroot => exact .inclusion hmarker (hmore _ hroot)
  | selector hselector hroot => exact .selector hselector (hmore _ hroot)
  | computed hcomputed => exact .computed hcomputed

theorem surviving_subset (hcolumns : columns.names ≠ [])
    (hmore : ∀ name ∈ columns.names, name ∈ more.names) (entries : Document) :
    ∀ entry ∈ surviving columns entries, entry ∈ surviving more entries := by
  intro entry hentry
  obtain ⟨hmem, hsurvives⟩ := List.mem_filter.1 hentry
  have hsurvives := (of_decide_eq_true hsurvives).mono hcolumns hmore
  exact List.mem_filter.2 ⟨hmem, decide_eq_true hsurvives⟩

theorem included_subset (hcolumns : columns.names ≠ [])
    (hmore : ∀ name ∈ columns.names, name ∈ more.names) (names : List String) :
    ∀ entry ∈ included columns names, entry ∈ included more names := by
  intro entry hentry
  obtain ⟨name, hname, rfl⟩ := List.mem_map.1 hentry
  obtain ⟨hname, hseen⟩ := (mem_withoutRepeats_iff [] _ name).1 hname
  obtain ⟨hmem, hallowed⟩ := List.mem_filter.1 hname
  have hcolumn := (of_decide_eq_true hallowed).resolve_left hcolumns
  have hallowed' : name ∈ names.filter fun name => more.names = [] ∨ name ∈ more.names :=
    List.mem_filter.2 ⟨hmem, decide_eq_true (.inr (hmore name hcolumn))⟩
  exact List.mem_map_of_mem ((mem_withoutRepeats_iff [] _ name).2 ⟨hallowed', hseen⟩)

end MoreColumns

/-- What survives of a request under a restriction survives of it under more columns. -/
theorem survivors_subset {fieldNames : List String} {fields raw acl more : Option String}
    {survivors others : Document} (hcolumns : (Columns.ofText acl).names ≠ [])
    (hmore : ∀ name ∈ (Columns.ofText acl).names, name ∈ (Columns.ofText more).names)
    (h : Survivors fieldNames ⟨fields, acl, raw⟩ survivors)
    (hothers : Survivors fieldNames ⟨fields, more, raw⟩ others) :
    ∀ entry ∈ survivors, entry ∈ others := by
  cases h with
  | all hfields hraw =>
    cases hothers with
    | all _ _ => exact included_subset hcolumns hmore fieldNames
    | listed hlisted => cases hfields.symm.trans hlisted
    | raw _ htext _ => cases hraw.symm.trans htext
  | listed hlisted =>
    cases hothers with
    | all hfields _ => cases hfields.symm.trans hlisted
    | listed hlisted' =>
      obtain rfl := Option.some.inj (hlisted.symm.trans hlisted')
      exact included_subset hcolumns hmore _
    | raw hfields _ _ => cases hfields.symm.trans hlisted
  | raw hfields htext hread =>
    cases hothers with
    | all _ hraw => cases hraw.symm.trans htext
    | listed hlisted => cases hfields.symm.trans hlisted
    | raw _ htext' hread' =>
      obtain rfl := Option.some.inj (htext.symm.trans htext')
      obtain rfl := Json.object.inj (Option.some.inj (hread.symm.trans hread'))
      exact surviving_subset hcolumns hmore _

/-- What a request resolves to is kept under more columns. -/
theorem entries_subset_of_resolve {fieldNames : List String} {fields raw acl more : Option String}
    {projection other : Projection} (hcolumns : (Columns.ofText acl).names ≠ [])
    (hmore : ∀ name ∈ (Columns.ofText acl).names, name ∈ (Columns.ofText more).names)
    (h : resolve fieldNames ⟨fields, acl, raw⟩ = .ok projection)
    (hother : resolve fieldNames ⟨fields, more, raw⟩ = .ok other) (hid : projection ≠ idOnly) :
    ∀ entry ∈ projection.entries, entry ∈ other.entries := by
  obtain ⟨survivors, hsurvivors, rfl⟩ := survivors_of_resolve h
  obtain ⟨others, hothers, rfl⟩ := survivors_of_resolve hother
  rcases ofEntries_eq survivors with ⟨-, hnothing⟩ | ⟨-, hentries⟩
  · exact absurd hnothing hid
  · intro entry hentry
    rw [hentries] at hentry
    have hkept := survivors_subset hcolumns hmore hsurvivors hothers entry hentry
    rcases ofEntries_eq others with ⟨hnone, -⟩ | ⟨-, hentries'⟩
    · rw [hnone] at hkept
      cases hkept
    · rw [hentries']
      exact hkept

/-- Only the set of the columns matters to what a request resolves to, or to the fault
that is found in it.  And under more columns than some that restrict it, a request that
is accepted under both keeps all that it selects, with the same values, unless it has
fallen back to the identifier. -/
theorem resolve_by_columns (fieldNames : List String) (fields raw acl more : Option String) :
    ((∀ name, name ∈ Text.listItems (acl.getD "") ↔ name ∈ Text.listItems (more.getD "")) →
      resolve fieldNames ⟨fields, acl, raw⟩ = resolve fieldNames ⟨fields, more, raw⟩) ∧
    (Text.listItems (acl.getD "") ≠ [] →
      (∀ name ∈ Text.listItems (acl.getD ""), name ∈ Text.listItems (more.getD "")) →
      ∀ projection other, resolve fieldNames ⟨fields, acl, raw⟩ = .ok projection →
        resolve fieldNames ⟨fields, more, raw⟩ = .ok other → projection ≠ idOnly →
        ∀ entry ∈ projection.entries, entry ∈ other.entries) := by
  constructor
  · intro hsame
    refine resolve_congr (fun name => ?_) fieldNames fields raw
    rw [Columns.mem_ofText_iff, Columns.mem_ofText_iff]
    exact hsame name
  · intro hcolumns hmore projection other h hother hid
    refine entries_subset_of_resolve (Columns.ofText_ne_nil_iff.2 hcolumns) ?_ h hother hid
    intro name hname
    exact Columns.mem_ofText_iff.2 (hmore name (Columns.mem_ofText_iff.1 hname))

/-- Columns in another order, one of them twice, leave the same of a raw projection; and
an inclusion that survives under one column survives under two, where a selector does as
well. -/
theorem resolve_by_columns_slice :
    resolve [] ⟨none, some "a, c", some "\x7b\"a\":1,\"b\":1,\"c\":\x7b\"$slice\":2\x7d\x7d"⟩ =
      resolve [] ⟨none, some "c,,a,a", some "\x7b\"a\":1,\"b\":1,\"c\":\x7b\"$slice\":2\x7d\x7d"⟩ ∧
    resolve [] ⟨none, some "a", some "\x7b\"a\":1,\"b\":1,\"c\":\x7b\"$slice\":2\x7d\x7d"⟩ =
      .ok ⟨[("a", .int32 1)]⟩ ∧
    resolve [] ⟨none, some "a, c", some "\x7b\"a\":1,\"b\":1,\"c\":\x7b\"$slice\":2\x7d\x7d"⟩ =
      .ok ⟨[("a", .int32 1), ("c", .document [("$slice", .int32 2)])]⟩ ∧
    ("a", Bson.int32 1) ∈ [("a", .int32 1), ("c", .document [("$slice", .int32 2)])] := by
  refine (fun hone htwo => ⟨?same, hone, htwo, ?kept⟩) ?one ?two
  case one => decide +kernel
  case two => decide +kernel
  case same =>
    have hitems : Text.listItems "a, c" = ["a", "c"] ∧
        Text.listItems "c,,a,a" = ["c", "a", "a"] := by decide +kernel
    refine (resolve_by_columns _ _ _ _ _).1 fun name => ?_
    show name ∈ Text.listItems "a, c" ↔ name ∈ Text.listItems "c,,a,a"
    rw [hitems.1, hitems.2]
    simp only [List.mem_cons, List.not_mem_nil, or_false, or_self]
    exact or_comm
  case kept =>
    have hcolumns : Text.listItems "a" ≠ [] := by decide +kernel
    have hmore : ∀ name ∈ Text.listItems "a", name ∈ Text.listItems "a, c" := by decide +kernel
    have hid : (⟨[("a", .int32 1)]⟩ : Projection) ≠ idOnly := by simp [idOnly, Bookkeeping.idField]
    have hentry : ("a", Bson.int32 1) ∈ [("a", Bson.int32 1)] := List.mem_singleton_self _
    obtain ⟨-, hkept⟩ := resolve_by_columns [] none
      (some "\x7b\"a\":1,\"b\":1,\"c\":\x7b\"$slice\":2\x7d\x7d") (some "a") (some "a, c")
    exact hkept hcolumns hmore _ _ hone htwo hid _ hentry

end Projection

end DocGate
