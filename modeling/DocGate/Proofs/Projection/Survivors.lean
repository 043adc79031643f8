import DocGate.Proofs.Grammar.Forwarding
import DocGate.Proofs.Projection.Confinement

/-!
# What is left of a selection

Which entries of a selection survive `Projection.resolve`, said one entry at a time.

* `Projection.surviving` are the entries of a raw projection for which
  `Projection.Survives` holds, and `Projection.included` the names that columns allow.
* `Projection.Survivors` lists the entries that survive a request, in order, for each of
  the three ways of selecting fields, and `Projection.survivors_of_resolve` says that an
  accepted request comes to them.
* `Projection.RefusesRaw` lists the reasons against a raw projection, and
  `Projection.exists_rawParts_iff` says that there is no other.
-/

namespace DocGate

namespace Projection

variable {columns : Columns}

/-! ## Entries of raw projections -/

/-- The entries of a raw projection that survive. -/
def surviving (columns : Columns) (entries : Document) : Document :=
  entries.filter fun entry => Survives columns entry.1 entry.2

theorem passing_eq_surviving (columns : Columns) (entries : Document) :
    passing columns entries = surviving columns entries := by
  refine List.filter_congr fun entry _ => ?_
  rw [Bool.eq_iff_iff, decide_eq_true_iff]
  exact permits_eq_true_iff

/-! ## Names -/

/-- The fields that columns leave of some names, each where it occurs first. -/
def included (columns : Columns) (names : List String) : Document :=
  (withoutRepeats [] (names.filter fun name => columns.names = [] ∨ name ∈ columns.names)).map
    fun name => (name, inclusion)

theorem ofNames_allowed (columns : Columns) (names : List String) :
    ofNames (names.filter columns.allows) = ofEntries (included columns names) := by
  have hallowed : names.filter columns.allows =
      names.filter fun name => columns.names = [] ∨ name ∈ columns.names := by
    refine List.filter_congr fun name _ => ?_
    rw [Bool.eq_iff_iff, decide_eq_true_iff]
    exact Columns.allows_eq_true_iff
  rw [ofNames, hallowed, included]

/-! ## Accepted requests -/

/-- The entries that survive a request: the fields of the collection without a selection,
the listed fields, or the entries of a raw projection, each as far as the columns allow
it. -/
inductive Survivors (fieldNames : List String) (request : ProjectionRequest) : Document → Prop
  | all (hfields : Text.unlessBlank? request.fields = none)
      (hraw : Text.unlessBlank? request.raw = none) :
      Survivors fieldNames request (included (Columns.ofText request.columns) fieldNames)
  | listed {fields : String} (hfields : Text.unlessBlank? request.fields = some fields) :
      Survivors fieldNames request
        (included (Columns.ofText request.columns) (Text.listItems fields))
  | raw {text : String} {members : Assoc Json}
      (hfields : Text.unlessBlank? request.fields = none)
      (hraw : Text.unlessBlank? request.raw = some text)
      (hread : (RawJson.read? text).bind Json.ofRaw? = some (.object members)) :
      Survivors fieldNames request
        (surviving (Columns.ofText request.columns) (Bson.ofMembers members))

/-- An accepted request comes to what survives of it. -/
theorem survivors_of_resolve {fieldNames : List String} {request : ProjectionRequest}
    {projection : Projection} (h : resolve fieldNames request = .ok projection) :
    ∃ survivors, Survivors fieldNames request survivors ∧ projection = ofEntries survivors := by
  rcases resolve_cases h with ⟨fields, hfields, rfl⟩ |
    ⟨raw, entries, hfields, hraw, hdocument, -, rfl⟩ | ⟨hfields, hraw, rfl⟩
  · exact ⟨_, .listed hfields, ofNames_allowed _ _⟩
  · obtain ⟨members, hread, -, rfl⟩ := FragmentKind.toDocument_eq_ok_iff.1 hdocument
    rw [passing_eq_surviving]
    exact ⟨_, .raw hfields hraw (FragmentKind.read_eq_ok_iff.1 hread), rfl⟩
  · exact ⟨_, .all hfields hraw, ofNames_allowed _ _⟩

/-- A projection of entries is the identifier if there are none. -/
theorem ofEntries_eq (entries : Document) :
    entries = [] ∧ ofEntries entries = idOnly ∨ entries ≠ [] ∧ ofEntries entries = ⟨entries⟩ := by
  cases entries with
  | nil => exact .inl ⟨rfl, rfl⟩
  | cons entry rest => exact .inr ⟨List.cons_ne_nil _ _, rfl⟩

/-! ## Refused raw projections -/

/-- The reasons against a raw projection: its text is no JSON object, a key or string of
it has a token that is not allowed, it excludes a readable column, or nothing but
selectors survives of it under a restriction. -/
inductive RefusesRaw (fieldNames : List String) (columns : Columns) (text : String) : Prop
  | notObject
      (hread : ∀ members, (RawJson.read? text).bind Json.ofRaw? ≠ some (.object members))
  | token {members : Assoc Json} {within : String}
      (hread : (RawJson.read? text).bind Json.ofRaw? = some (.object members))
      (hwithin : within ∈ Json.membersTexts members)
      (hrefused : ¬ FragmentKind.projection.Admits (readable fieldNames columns) within)
  | exclusion {members : Assoc Json} {column : String} {value : Bson}
      (hread : (RawJson.read? text).bind Json.ofRaw? = some (.object members))
      (hcolumn : column ∈ columns.names) (hentry : (column, value) ∈ Bson.ofMembers members)
      (hmarker : marker? value = some false)
  | onlySelectors {members : Assoc Json}
      (hread : (RawJson.read? text).bind Json.ofRaw? = some (.object members))
      (hcolumns : columns.names ≠ [])
      (hleft : surviving columns (Bson.ofMembers members) ≠ [])
      (hselectors : ∀ entry ∈ surviving columns (Bson.ofMembers members), FieldSelector entry.2)

theorem excludedColumn?_eq_none_iff {entries : Document} :
    excludedColumn? columns entries = none ↔
      ∀ entry ∈ entries, entry.1 ∈ columns.names → marker? entry.2 ≠ some false := by
  rw [excludedColumn?, Option.map_eq_none_iff, List.find?_eq_none]
  refine forall₂_congr fun entry _ => ?_
  rw [Bool.and_eq_true, Columns.contains_eq_true_iff, beq_iff_eq, not_and]

/-- A raw projection is accepted just where its text is an object, all of its texts are
admitted, no readable column is excluded, and something else than selectors survives or
nothing at all. -/
theorem exists_rawParts_iff_members {fieldNames : List String} {text : String} :
    (∃ parts, rawParts fieldNames columns text = .ok parts) ↔
      ∃ members, (RawJson.read? text).bind Json.ofRaw? = some (.object members) ∧
        (∀ within ∈ Json.membersTexts members,
          FragmentKind.projection.Admits (readable fieldNames columns) within) ∧
        (∀ entry ∈ Bson.ofMembers members,
          entry.1 ∈ columns.names → marker? entry.2 ≠ some false) ∧
        ¬ (surviving columns (Bson.ofMembers members) ≠ [] ∧ columns.names ≠ [] ∧
          ∀ entry ∈ surviving columns (Bson.ofMembers members), FieldSelector entry.2) := by
  constructor
  · intro ⟨parts, hparts⟩
    obtain ⟨entries, hdocument, permitted, hpermitted, -⟩ := rawParts_eq_ok_iff.1 hparts
    obtain ⟨members, hread, hallowed, rfl⟩ := FragmentKind.toDocument_eq_ok_iff.1 hdocument
    obtain ⟨hexcluded, rfl, hselectors⟩ := permittedEntries_eq_ok_iff.1 hpermitted
    simp only [passing_eq_surviving, selectsWithin_eq_true_iff] at hselectors
    exact ⟨members, FragmentKind.read_eq_ok_iff.1 hread,
      fun within hwithin => FragmentKind.allowsText_iff_admits.1 (hallowed within hwithin),
      excludedColumn?_eq_none_iff.1 hexcluded, hselectors⟩
  · intro ⟨members, hread, hadmitted, hexcluded, hselectors⟩
    have hdocument : FragmentKind.projection.toDocument (readable fieldNames columns) text =
        .ok (Bson.ofMembers members) :=
      FragmentKind.toDocument_eq_ok_iff.2 ⟨members, FragmentKind.read_eq_ok_iff.2 hread,
        fun within hwithin => FragmentKind.allowsText_iff_admits.2 (hadmitted within hwithin), rfl⟩
    have hpermitted : permittedEntries columns (Bson.ofMembers members) =
        .ok (passing columns (Bson.ofMembers members)) := by
      refine permittedEntries_eq_ok_iff.2
        ⟨excludedColumn?_eq_none_iff.2 hexcluded, rfl, ?_⟩
      simpa only [passing_eq_surviving, selectsWithin_eq_true_iff] using hselectors
    exact ⟨_, rawParts_eq_ok_iff.2 ⟨_, hdocument, _, hpermitted, rfl⟩⟩

/-- A raw projection is accepted just where no reason is against it. -/
theorem exists_rawParts_iff {fieldNames : List String} {text : String} :
    (∃ parts, rawParts fieldNames columns text = .ok parts) ↔
      ¬ RefusesRaw fieldNames columns text := by
  rw [exists_rawParts_iff_members]
  constructor
  · intro ⟨members, hread, hadmitted, hexcluded, hselectors⟩ hrefuses
    have hsame : ∀ others, (RawJson.read? text).bind Json.ofRaw? = some (.object others) →
        others = members := by
      intro others hothers
      rw [hread] at hothers
      exact (Json.object.inj (Option.some.inj hothers)).symm
    cases hrefuses with
    | notObject hnone => exact hnone members hread
    | token hread' hwithin hrefused =>
      obtain rfl := hsame _ hread'
      exact hrefused (hadmitted _ hwithin)
    | exclusion hread' hcolumn hentry hmarker =>
      obtain rfl := hsame _ hread'
      exact hexcluded _ hentry hcolumn hmarker
    | onlySelectors hread' hcolumns hleft honly =>
      obtain rfl := hsame _ hread'
      exact hselectors ⟨hleft, hcolumns, honly⟩
  · intro hnot
    obtain ⟨members, hread⟩ : ∃ members,
        (RawJson.read? text).bind Json.ofRaw? = some (.object members) :=
      Classical.byContradiction fun hnone =>
        hnot (.notObject fun members hread => hnone ⟨members, hread⟩)
    refine ⟨members, hread, ?_, ?_, ?_⟩
    · intro within hwithin
      exact Classical.byContradiction fun hrefused => hnot (.token hread hwithin hrefused)
    · intro entry hentry hcolumn hmarker
      exact hnot (.exclusion hread hcolumn hentry hmarker)
    · intro ⟨hleft, hcolumns, honly⟩
      exact hnot (.onlySelectors hread hcolumns hleft honly)

/-- A raw projection that comes without a field list and is not blank is refused just
where there is a reason against it. -/
theorem resolve_raw_eq_error_iff {fieldNames : List String} {request : ProjectionRequest}
    {text : String} (hraw : request.raw = some text)
    (halone : request.fields = none ∨ request.fields = some "")
    (hblank : Text.isAllBlank text = false) :
    (∃ fault, resolve fieldNames request = .error fault) ↔
      RefusesRaw fieldNames (Columns.ofText request.columns) text := by
  have hfields : request.isAmbiguous = false ∧ Text.unlessBlank? request.fields = none := by
    rw [ProjectionRequest.isAmbiguous]
    rcases halone with hnone | hempty
    · rw [hnone]
      exact ⟨rfl, rfl⟩
    · rw [hempty]
      exact ⟨rfl, rfl⟩
  have hsome : Text.unlessBlank? request.raw = some text := by
    rw [hraw]
    simp [Text.unlessBlank?, hblank]
  have hparts : requestedParts fieldNames request =
      rawParts fieldNames (Columns.ofText request.columns) text := by
    rw [requestedParts, hfields.1, if_neg Bool.false_ne_true, hfields.2, hsome]
  rw [← not_iff_not, ← exists_rawParts_iff, resolve, hparts]
  cases rawParts fieldNames (Columns.ofText request.columns) text with
  | error fault => simp
  | ok parts => simp

/-- A request without a raw projection is accepted, unless a blank one comes with a field
list. -/
theorem exists_resolve_of_no_raw {fieldNames : List String} {request : ProjectionRequest}
    (halone : request.isAmbiguous = false) (hraw : Text.unlessBlank? request.raw = none) :
    ∃ projection, resolve fieldNames request = .ok projection := by
  rw [resolve, requestedParts, halone, if_neg Bool.false_ne_true, hraw]
  cases Text.unlessBlank? request.fields with
  | none => exact ⟨_, rfl⟩
  | some fields => exact ⟨_, rfl⟩

/-- An accepted request comes to the entries that survive of it, in their order and with
their values, or to the identifier if none does.  A raw projection that comes without a
field list and is not blank is refused just where its text is no JSON object, has a token
that is not allowed, excludes a readable column, or leaves nothing but selectors under a
restriction.  A request without a raw projection is accepted. -/
theorem resolve_leaves (fieldNames : List String) (request : ProjectionRequest) :
    (∀ projection, resolve fieldNames request = .ok projection →
      ∃ survivors, Survivors fieldNames request survivors ∧
        (survivors = [] ∧ projection = idOnly ∨
          survivors ≠ [] ∧ projection = ⟨survivors⟩)) ∧
    (∀ text, request.raw = some text → request.fields = none ∨ request.fields = some "" →
      Text.isAllBlank text = false →
        ((∃ fault, resolve fieldNames request = .error fault) ↔
          RefusesRaw fieldNames (Columns.ofText request.columns) text)) ∧
    (request.isAmbiguous = false → Text.unlessBlank? request.raw = none →
      ∃ projection, resolve fieldNames request = .ok projection) := by
  refine ⟨fun projection h => ?_, fun text hraw halone hblank =>
    resolve_raw_eq_error_iff hraw halone hblank, exists_resolve_of_no_raw⟩
  obtain ⟨survivors, hsurvivors, rfl⟩ := survivors_of_resolve h
  exact ⟨survivors, hsurvivors, ofEntries_eq survivors⟩

/-- Of a raw projection under two columns an inclusion within a column survives where it
occurs first, with its last value, and so do a selector and a computed value; null and
another field do not.  If a selector is all that survives, the projection is refused.  A
list of fields is accepted, though none of them may be read. -/
theorem resolve_leaves_mixed :
    resolve []
        { columns := some "a, c"
          raw := some ("\x7b\"b\":1,\"a.x\":1,\"n\":null,\"c\":\x7b\"$slice\":2\x7d," ++
            "\"e\":[\"$a\"],\"a.x\":true\x7d") } =
      .ok ⟨[("a.x", .bool true), ("c", .document [("$slice", .int32 2)]),
        ("e", .array [.string "$a"])]⟩ ∧
    Survivors []
        { columns := some "a, c"
          raw := some ("\x7b\"b\":1,\"a.x\":1,\"n\":null,\"c\":\x7b\"$slice\":2\x7d," ++
            "\"e\":[\"$a\"],\"a.x\":true\x7d") }
        [("a.x", .bool true), ("c", .document [("$slice", .int32 2)]),
          ("e", .array [.string "$a"])] ∧
    RefusesRaw [] (Columns.ofText (some "a, c")) "\x7b\"b\":1,\"c\":\x7b\"$slice\":2\x7d\x7d" ∧
    ∃ projection, resolve ["a", "b"] { fields := some "b,, b ", columns := some "a, c" } =
      .ok projection := by
  refine (fun hresolve => ⟨hresolve, ?survivors, ?refused, ?listed⟩) ?resolve
  case resolve => decide +kernel
  case survivors =>
    obtain ⟨survivors, hsurvivors, hempty | hentries⟩ := (resolve_leaves [] _).1 _ hresolve
    · simp [idOnly] at hempty
    · obtain rfl := congrArg Projection.entries hentries.2
      exact hsurvivors
  case refused =>
    have herror : resolve []
        { columns := some "a, c"
          raw := some "\x7b\"b\":1,\"c\":\x7b\"$slice\":2\x7d\x7d" } = .error .onlySelectors := by
      decide +kernel
    exact ((resolve_leaves [] _).2.1 _ rfl (.inl rfl) (by decide +kernel)).1 ⟨_, herror⟩
  case listed => exact (resolve_leaves _ _).2.2 (by decide +kernel) rfl

end Projection

end DocGate
