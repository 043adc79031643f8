import Mathlib.Data.List.TakeWhile
import DocGate.Proofs.Grammar.Scan
import DocGate.Proofs.Json.RoundTrip
import DocGate.Proofs.Projection.Confinement

/-!
# References to fields in computed entries

The store reads a string of an expression as a reference to a field if it
starts with one dollar sign, and it takes everything up to the first dot as the
name of the field.  The check of a raw projection looks at tokens instead: a
token ends with the last word character, and one that is an operator passes
wherever it stands.  So the check guards a field only if the two readings
agree.

* `Text.IsReference` and `Text.referenceRoot` are the reading of the store, and
  `Bson.entriesReferences` lists the strings that it reads so.
* `Projection.Guards` says that no result under some columns refers to a field
  unless it is one of them.
* `Projection.guards_iff` says exactly when this is so: the field is a column,
  or its dollar text has a token that the check refuses.  A field whose name is
  a run of word characters and no operator is always guarded.
* `Projection.reference_escapes` is a field that is not.
-/

namespace DocGate

/-! ## The store's reading -/

namespace Text

/-- A text that the store reads as a reference to a field: it starts with one
dollar sign. -/
def IsReference (text : String) : Prop :=
  ∃ path, text.toList = '$' :: path ∧ path.head? ≠ some '$'

/-- The field that a reference leads into: what stands between the dollar sign
and the first dot. -/
def referenceRoot (text : String) : String :=
  String.ofList ((text.toList.drop 1).takeWhile (· ≠ '.'))

/-- A name that the check and the store read alike: a run of word characters
that is no operator of projections. -/
def IsPlainName (name : String) : Prop :=
  name ≠ "" ∧ (∀ c ∈ name.toList, isWord c = true) ∧ "$" ++ name ∉ Operators.ofProjections

theorem toList_dollar_append (name : String) : ("$" ++ name).toList = '$' :: name.toList := by
  rw [String.toList_append]
  rfl

/-- A dot belongs to no token. -/
theorem isWord_dot : isWord '.' = false := by decide

end Text

namespace Bson

mutual

/-- The strings in a value that are no operands of `$literal`: those that the
store may read as references. -/
def references : Bson → List String
  | .string text => [text]
  | .array items => itemsReferences items
  | .document entries => entriesReferences entries
  | _ => []

/-- The strings in the items of an array that are no operands of `$literal`. -/
def itemsReferences : List Bson → List String
  | [] => []
  | item :: rest => references item ++ itemsReferences rest

/-- The strings in the entries of a document that are no operands of
`$literal`. -/
def entriesReferences : List (String × Bson) → List String
  | [] => []
  | (key, value) :: rest =>
    (if key = "$literal" then [] else references value) ++ entriesReferences rest

end

mutual

/-- A string that may be a reference is one of the texts. -/
theorem mem_texts_of_mem_references {text : String} :
    ∀ {value : Bson}, text ∈ references value → text ∈ value.texts
  | value, h => by
    cases value with
    | string _ => exact h
    | array items => exact mem_itemsTexts_of_mem_references h
    | document entries => exact mem_entriesTexts_of_mem_references h
    | _ => cases h

theorem mem_itemsTexts_of_mem_references {text : String} :
    ∀ {items : List Bson}, text ∈ itemsReferences items → text ∈ itemsTexts items
  | [], h => by cases h
  | item :: rest, h => by
    rw [itemsReferences, List.mem_append] at h
    rw [itemsTexts, List.mem_append]
    exact h.imp mem_texts_of_mem_references mem_itemsTexts_of_mem_references

theorem mem_entriesTexts_of_mem_references {text : String} :
    ∀ {entries : List (String × Bson)},
      text ∈ entriesReferences entries → text ∈ entriesTexts entries
  | [], h => by cases h
  | (key, value) :: rest, h => by
    rw [entriesReferences, List.mem_append] at h
    rw [entriesTexts, List.cons_append, List.mem_cons, List.mem_append]
    refine .inr (h.imp (fun hvalue => ?_) mem_entriesTexts_of_mem_references)
    split at hvalue
    · cases hvalue
    · exact mem_texts_of_mem_references hvalue

end

/-- Markers that include are no references. -/
theorem entriesReferences_inclusion {entries : Document}
    (h : ∀ entry ∈ entries, entry.2 = Projection.inclusion) : entriesReferences entries = [] := by
  induction entries with
  | nil => rfl
  | cons entry rest ih =>
    obtain ⟨key, value⟩ := entry
    obtain rfl : value = Projection.inclusion := h (key, value) List.mem_cons_self
    rw [entriesReferences, ih fun entry hentry => h entry (List.mem_cons_of_mem _ hentry)]
    simp [references, Projection.inclusion]

end Bson

/-! ## The two readings -/

namespace Text

variable {text root : String}

/-- A reference is its dollar sign, the field that it leads into, and nothing
more or a dot with the rest of the path. -/
theorem IsReference.toList_eq (h : IsReference text) :
    text.toList = '$' :: (referenceRoot text).toList ∨
      ∃ rest, text.toList = '$' :: ((referenceRoot text).toList ++ '.' :: rest) := by
  obtain ⟨path, hpath, -⟩ := h
  have hroot : (referenceRoot text).toList = path.takeWhile (· ≠ '.') := by
    rw [referenceRoot, String.toList_ofList, hpath]
    rfl
  have hsplit : path.takeWhile (· ≠ '.') ++ path.dropWhile (· ≠ '.') = path :=
    List.takeWhile_append_dropWhile
  rw [hroot, hpath]
  cases hrest : path.dropWhile (· ≠ '.') with
  | nil =>
    rw [hrest, List.append_nil] at hsplit
    rw [hsplit]
    exact .inl rfl
  | cons c rest =>
    have hdot : c = '.' := by
      have hhead := List.head?_dropWhile_not (· ≠ '.') path
      rw [hrest] at hhead
      simpa using hhead
    rw [hrest, hdot] at hsplit
    exact .inr ⟨rest, by rw [hsplit]⟩

/-- The tokens of a reference begin with those of its field. -/
theorem IsReference.tokens_root (h : IsReference text) :
    ∀ token ∈ Token.ofText ("$" ++ referenceRoot text), token ∈ Token.ofText text := by
  intro token htoken
  rw [Token.ofText, toList_dollar_append] at htoken
  rw [Token.ofText]
  rcases h.toList_eq with heq | ⟨rest, heq⟩
  · rw [heq]
    exact htoken
  · have happend := (Token.scan_append_separator isWord_dot (by decide)
      ('$' :: (referenceRoot text).toList) rest).1 0
    rw [heq, ← List.cons_append, happend]
    exact List.mem_append_left _ htoken

/-- The dollar text of a field name is a reference to the field. -/
theorem isReference_dollar_append (hdollar : root.toList.head? ≠ some '$') :
    IsReference ("$" ++ root) :=
  ⟨root.toList, toList_dollar_append root, hdollar⟩

theorem referenceRoot_dollar_append (hdot : '.' ∉ root.toList) :
    referenceRoot ("$" ++ root) = root := by
  have hroot : referenceRoot ("$" ++ root) = pathRoot root := by
    rw [referenceRoot, toList_dollar_append, List.drop_succ_cons, List.drop_zero, pathRoot]
  rw [hroot, pathRoot_eq_self hdot]

/-- The dollar text of a run of word characters is one token. -/
theorem IsPlainName.ofText_dollar_append (h : IsPlainName root) :
    Token.ofText ("$" ++ root) = [.dollar root] := by
  obtain ⟨hne, hword, -⟩ := h
  have hlist : root.toList ≠ [] := fun hnil => hne (String.toList_eq_nil_iff.1 hnil)
  have hhead : root.toList.head? ≠ some '$' := by
    intro hdollar
    have hmem : '$' ∈ root.toList := List.mem_of_mem_head? hdollar
    exact absurd (hword '$' hmem) (by decide)
  have htake : root.toList.takeWhile isWord = root.toList := List.takeWhile_eq_self_iff.2 hword
  have hdrop : root.toList.dropWhile isWord = [] := List.dropWhile_eq_nil_iff.2 hword
  rw [Token.ofText, toList_dollar_append, Token.scan, if_pos rfl, Token.scan_one_eq hhead, htake,
    hdrop, if_neg hlist, String.ofList_toList]
  rfl

end Text

namespace Projection

/-! ## What the check refuses -/

/-- Under a restriction, what a result may refer to has passed the check. -/
theorem allowsText_of_mem_references {fieldNames : List String} {request : ProjectionRequest}
    {projection : Projection} (hcolumns : (Columns.ofText request.columns).names ≠ [])
    (h : resolve fieldNames request = .ok projection) :
    ∀ text ∈ Bson.entriesReferences projection.entries,
      FragmentKind.projection.AllowsText (Columns.ofText request.columns).contains text := by
  have hnames : ∀ names, Bson.entriesReferences (ofNames names).entries = [] := by
    intro names
    rcases ofNames_cases names with hid | ⟨-, hentries⟩
    · rw [hid]
      exact Bson.entriesReferences_inclusion (by simp [idOnly])
    · exact Bson.entriesReferences_inclusion fun entry hentry => (hentries entry hentry).2
  intro text htext
  rcases resolve_cases h with ⟨fields, -, rfl⟩ | ⟨raw, entries, hfields, hraw, -⟩ | ⟨-, -, rfl⟩
  · rw [hnames] at htext
    cases htext
  · have hisRaw : request.IsRaw := ⟨hfields, by rw [hraw]; exact Option.some_ne_none raw⟩
    rcases allowsText_of_resolve hcolumns h hisRaw with rfl | hallowed
    · rw [idOnly, Bson.entriesReferences_inclusion (by simp)] at htext
      cases htext
    · exact hallowed text (Bson.mem_entriesTexts_of_mem_references htext)
  · rw [hnames] at htext
    cases htext

/-! ## What the check accepts -/

/-- A raw projection that computes one field, a copy of what `text` refers to. -/
def copying (text : String) : String :=
  RawJson.render (.ofMembers [("x", .ofText text)])

theorem read_copying (text : String) :
    FragmentKind.projection.read (copying text) = .ok [("x", .string text)] := by
  have hraw : RawJson.read? (copying text) = some (.ofMembers [("x", .ofText text)]) :=
    RawJson.read?_render _
  have hvalue : Json.ofRaw? (.ofMembers [("x", .ofText text)]) =
      some (.object [("x", .string text)]) := by
    simp [Json.ofRaw?, Json.maxDepth, RawJson.ofMembers, RawJson.ofText, Json.ofRawWithin?,
      StringPiece.text?_ofText, Assoc.ofList, Assoc.setAll, Assoc.set]
  rw [FragmentKind.read, hraw, Option.bind_some, hvalue]

theorem isAllBlank_copying (text : String) : Text.isAllBlank (copying text) = false := by
  obtain ⟨rest, hchars⟩ : ∃ rest, (copying text).toList = '{' :: rest :=
    ⟨_, by rw [copying, RawJson.render, String.toList_ofList, RawJson.ofMembers, RawJson.chars,
      List.cons_append]⟩
  have hbrace : Text.isBlank '{' = false := by decide
  rw [Text.isAllBlank, hchars, List.all_cons, hbrace, Bool.false_and]

/-- A raw projection that copies a checked text is accepted as it is. -/
theorem resolve_copying {fieldNames : List String} {acl : Option String} {text : String}
    (hcolumns : (Columns.ofText acl).names ≠ [])
    (h : FragmentKind.projection.AllowsText (Columns.ofText acl).contains text) :
    resolve fieldNames { columns := acl, raw := some (copying text) } =
      .ok ⟨[("x", .string text)]⟩ := by
  have hread : FragmentKind.projection.toDocument
      (readable fieldNames (Columns.ofText acl)) (copying text) =
        .ok [("x", .string text)] := by
    rw [readable_eq_contains hcolumns]
    refine FragmentKind.toDocument_eq_ok_iff.2 ⟨_, read_copying text, ?_, rfl⟩
    have hkey : Token.ofText "x" = [] := by decide +kernel
    simpa [Json.membersTexts, Json.texts, FragmentKind.AllowsText, hkey] using h
  have hpassing : passing (Columns.ofText acl) [("x", .string text)] = [("x", .string text)] := by
    simp [passing, permits, marker?, selectsWithin]
  have hpermitted : permittedEntries (Columns.ofText acl) [("x", .string text)] =
      .ok (passing (Columns.ofText acl) [("x", .string text)]) := by
    refine permittedEntries_eq_ok_iff.2 ⟨?_, rfl, ?_⟩
    · simp [excludedColumn?, marker?]
    · rw [hpassing]
      simp [selectsWithin]
  rw [resolve_eq_ok_of_raw (isAllBlank_copying text) hread hpermitted, hpassing]
  rfl

/-! ## Guarded fields -/

/-- No result under some columns refers to a field unless it is one of the
columns. -/
def Guards (fieldNames : List String) (acl : Option String) (root : String) : Prop :=
  ∀ request projection, request.columns = acl → resolve fieldNames request = .ok projection →
    ∀ text ∈ Bson.entriesReferences projection.entries,
      Text.IsReference text → Text.referenceRoot text = root →
        root ∈ (Columns.ofText acl).names

variable {fieldNames : List String} {acl : Option String} {root : String}

/-- A field is guarded by a token of its dollar text that the check refuses. -/
theorem guards_of_not_allowed (hcolumns : (Columns.ofText acl).names ≠ []) {token : Token}
    (htoken : token ∈ Token.ofText ("$" ++ root))
    (hnot : ¬ token.Allowed .projection (Columns.ofText acl).contains) :
    Guards fieldNames acl root := by
  rintro request projection rfl hresolve text htext hreference rfl
  have hallowed := allowsText_of_mem_references hcolumns hresolve text htext
  exact absurd (hallowed token (hreference.tokens_root token htoken)) hnot

/-- A field whose dollar text passes the check is guarded only by being a
column. -/
theorem mem_names_of_guards (hcolumns : (Columns.ofText acl).names ≠ [])
    (hdot : '.' ∉ root.toList) (hdollar : root.toList.head? ≠ some '$')
    (hallowed : FragmentKind.projection.AllowsText (Columns.ofText acl).contains ("$" ++ root))
    (h : Guards fieldNames acl root) : root ∈ (Columns.ofText acl).names := by
  have hmem : "$" ++ root ∈ Bson.entriesReferences [("x", .string ("$" ++ root))] := by
    simp [Bson.entriesReferences, Bson.references]
  exact h _ _ rfl (resolve_copying hcolumns hallowed) _ hmem
    (Text.isReference_dollar_append hdollar) (Text.referenceRoot_dollar_append hdot)

/-- A name that the check and the store read alike is a column or refused. -/
theorem not_allowed_of_isPlainName (hplain : Text.IsPlainName root)
    (hcolumn : root ∉ (Columns.ofText acl).names) :
    ¬ (Token.dollar root).Allowed .projection (Columns.ofText acl).contains := by
  rintro (hoperator | hreadable)
  · exact hplain.2.2 (List.contains_iff_mem.1 hoperator)
  · exact hcolumn (Columns.contains_eq_true_iff.1 hreadable)

/-- A field that is no column is guarded exactly if its dollar text has a token
that the check refuses.  A plain name is always guarded. -/
theorem guards_iff (fieldNames : List String) (acl : Option String) (root : String)
    (hcolumns : (Columns.ofText acl).names ≠ []) (hdot : '.' ∉ root.toList)
    (hdollar : root.toList.head? ≠ some '$') :
    (Text.IsPlainName root → Guards fieldNames acl root) ∧
      (Guards fieldNames acl root ↔ root ∈ (Columns.ofText acl).names ∨
        ∃ token ∈ Token.ofText ("$" ++ root),
          ¬ token.Allowed .projection (Columns.ofText acl).contains) := by
  refine ⟨fun hplain => ?plain, fun hguards => ?refused, ?guarded⟩
  case plain =>
    by_cases hcolumn : root ∈ (Columns.ofText acl).names
    · exact fun _ _ _ _ _ _ _ _ => hcolumn
    · have htoken : Token.dollar root ∈ Token.ofText ("$" ++ root) := by
        rw [hplain.ofText_dollar_append]
        exact List.mem_singleton_self _
      exact guards_of_not_allowed hcolumns htoken (not_allowed_of_isPlainName hplain hcolumn)
  case refused =>
    by_cases hallowed : FragmentKind.projection.AllowsText (Columns.ofText acl).contains
        ("$" ++ root)
    · exact .inl (mem_names_of_guards hcolumns hdot hdollar hallowed hguards)
    · refine .inr (Classical.byContradiction fun hnone => hallowed fun token htoken => ?_)
      exact Classical.byContradiction fun hnot => hnone ⟨token, htoken, hnot⟩
  case guarded =>
    rintro (hcolumn | ⟨token, htoken, hnot⟩)
    · exact fun _ _ _ _ _ _ _ _ => hcolumn
    · exact guards_of_not_allowed hcolumns htoken hnot

/-- Under one column, a field with a plain name, one with a hyphen and one with
the name of an operator. -/
theorem guards_iff_one_column :
    Guards [] (some "a") "b" ∧ ¬ Guards [] (some "a") "a-b" ∧
      ¬ Guards [] (some "a") "type" := by
  have hcolumns : (Columns.ofText (some "a")).names ≠ [] := by decide +kernel
  have hplain := guards_iff [] (some "a") "b" hcolumns (by decide) (by decide)
  have hhyphen := guards_iff [] (some "a") "a-b" hcolumns (by decide) (by decide)
  have hoperator := guards_iff [] (some "a") "type" hcolumns (by decide) (by decide)
  have hword : ∀ c ∈ "b".toList, Text.isWord c = true := List.all_eq_true.1 (by decide +kernel)
  refine ⟨hplain.1 ⟨by decide, hword, by decide +kernel⟩, ?hyphen, ?operator⟩
  case hyphen =>
    have htokens : Token.ofText ("$" ++ "a-b") = [.dollar "a"] := by decide +kernel
    have hcolumn : "a-b" ∉ (Columns.ofText (some "a")).names := by decide +kernel
    rw [hhyphen.2, htokens]
    rintro (hmem | ⟨token, htoken, hnot⟩)
    · exact hcolumn hmem
    · obtain rfl := List.mem_singleton.1 htoken
      exact hnot (.inr (by decide +kernel))
  case operator =>
    have htokens : Token.ofText ("$" ++ "type") = [.dollar "type"] := by decide +kernel
    have hcolumn : "type" ∉ (Columns.ofText (some "a")).names := by decide +kernel
    rw [hoperator.2, htokens]
    rintro (hmem | ⟨token, htoken, hnot⟩)
    · exact hcolumn hmem
    · obtain rfl := List.mem_singleton.1 htoken
      exact hnot (.inl (by decide +kernel))

/-- A caller who may read `a` only gets a projection that refers to `a-b`. -/
theorem reference_escapes :
    resolve ["a", "a-b"] { columns := some "a", raw := some "\x7b\"x\":\"$a-b\"\x7d" } =
        .ok ⟨[("x", .string "$a-b")]⟩ ∧
      "$a-b" ∈ Bson.entriesReferences [("x", .string "$a-b")] ∧
      Text.IsReference "$a-b" ∧ Text.referenceRoot "$a-b" = "a-b" ∧
      "a-b" ∉ (Columns.ofText (some "a")).names := by
  refine ⟨by decide +kernel, by decide +kernel, ⟨"a-b".toList, ?_, ?_⟩, by decide +kernel,
    by decide +kernel⟩
  · decide
  · decide

end Projection

end DocGate
