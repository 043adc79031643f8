import DocGate.Grammar.Fragment

/-!
# What the check of a fragment lets pass

The check of a fragment walks a JSON value and gives up at the first token that
it refuses.  Here its outcome is said without the walk: a fragment passes
exactly if every token of every text in it is allowed, and what passes is what
the store receives.

There are three groups.

* The texts of a value.  `Json.texts` and `Bson.texts` list the keys and the
  strings of a value at every depth, and `Bson.texts_ofJson` says that the
  stored form of a value has the same ones.
* The allowed tokens.  `Token.Allowed` is the rule for one token, and
  `Token.refusal` what is reported for another.
* The check.  `FragmentKind.checkMembers_eq` is the check without the walk, and
  `FragmentKind.toDocument_eq_ok_iff` adds the reading of the text.
-/

namespace DocGate

/-! ## The texts of a value -/

namespace Json

mutual

/-- The keys and strings in a value, at every depth. -/
def texts : Json → List String
  | .string text => [text]
  | .array items => itemsTexts items
  | .object members => membersTexts members
  | .null => []
  | .bool _ => []
  | .integer _ => []
  | .double _ => []

/-- The keys and strings in the items of an array. -/
def itemsTexts : List Json → List String
  | [] => []
  | item :: rest => texts item ++ itemsTexts rest

/-- The keys and strings in the members of an object, its own keys among them. -/
def membersTexts : List (String × Json) → List String
  | [] => []
  | (key, value) :: rest => key :: texts value ++ membersTexts rest

end

end Json

namespace Bson

mutual

/-- The keys and strings in a value, at every depth. -/
def texts : Bson → List String
  | .string text => [text]
  | .array items => itemsTexts items
  | .document entries => entriesTexts entries
  | _ => []

/-- The keys and strings in the items of an array. -/
def itemsTexts : List Bson → List String
  | [] => []
  | item :: rest => texts item ++ itemsTexts rest

/-- The keys and strings in the entries of a document, its own keys among them. -/
def entriesTexts : List (String × Bson) → List String
  | [] => []
  | (key, value) :: rest => key :: texts value ++ entriesTexts rest

end

/-- The texts of some entries are those of one of them: its key or a text of
its value. -/
theorem mem_entriesTexts_iff {entries : List (String × Bson)} {text : String} :
    text ∈ entriesTexts entries ↔ ∃ entry ∈ entries, text = entry.1 ∨ text ∈ entry.2.texts := by
  induction entries with
  | nil => simp [entriesTexts]
  | cons entry rest ih =>
    obtain ⟨key, value⟩ := entry
    simp only [entriesTexts, List.cons_append, List.mem_cons, List.mem_append, ih,
      exists_eq_or_imp, or_assoc]

/-- Fewer entries have fewer texts. -/
theorem entriesTexts_subset {some all : List (String × Bson)} (h : ∀ entry ∈ some, entry ∈ all) :
    ∀ text ∈ entriesTexts some, text ∈ entriesTexts all := by
  intro text htext
  obtain ⟨entry, hentry, hin⟩ := mem_entriesTexts_iff.1 htext
  exact mem_entriesTexts_iff.2 ⟨entry, h entry hentry, hin⟩

/-- The stored form of an integer has no texts: it is a number. -/
theorem texts_ofInt (n : Int) : (ofInt n).texts = [] := by
  unfold ofInt ofInt?
  split
  · rfl
  · split <;> rfl

mutual

/-- The stored form of a value has the texts of the value. -/
theorem texts_ofJson : ∀ value : Json, (ofJson value).texts = value.texts
  | .null => rfl
  | .bool _ => rfl
  | .integer n => by rw [ofJson, texts_ofInt, Json.texts]
  | .double _ => rfl
  | .string _ => rfl
  | .array items => by rw [ofJson, texts, Json.texts, itemsTexts_ofItems items]
  | .object members => by rw [ofJson, texts, Json.texts, entriesTexts_ofMembers members]

theorem itemsTexts_ofItems : ∀ items : List Json, itemsTexts (ofItems items) = Json.itemsTexts items
  | [] => rfl
  | item :: rest => by
    rw [ofItems, itemsTexts, Json.itemsTexts, texts_ofJson item, itemsTexts_ofItems rest]

/-- A document made from the members of an object has their texts. -/
theorem entriesTexts_ofMembers :
    ∀ members : List (String × Json), entriesTexts (ofMembers members) = Json.membersTexts members
  | [] => rfl
  | (key, value) :: rest => by
    rw [ofMembers, entriesTexts, Json.membersTexts, texts_ofJson value,
      entriesTexts_ofMembers rest]

end

end Bson

/-! ## The allowed tokens -/

/-- A token may stand in a fragment if it has one dollar sign and is an allowed
operator or a readable field. -/
def Token.Allowed (kind : FragmentKind) (readable : String → Bool) : Token → Prop
  | .dollar name => kind.allows ("$" ++ name) = true ∨ readable name = true
  | .variable _ => False

/-- What is wrong with a token that is not allowed. -/
def Token.refusal : Token → RequestFault
  | .dollar name => .token ("$" ++ name)
  | .variable name =>
    if Operators.systemVariables.contains name then .systemVariable name else .userVariable name

/-- Every token of a text may stand in a fragment. -/
def FragmentKind.AllowsText (kind : FragmentKind) (readable : String → Bool) (text : String) :
    Prop :=
  ∀ token ∈ Token.ofText text, token.Allowed kind readable

namespace FragmentKind

variable {kind : FragmentKind} {readable : String → Bool}

/-! ## The check -/

/-- The check of one token accepts the allowed ones. -/
theorem checkToken_eq_ok_iff {token : Token} :
    kind.checkToken readable token = .ok () ↔ token.Allowed kind readable := by
  cases token with
  | dollar name =>
    rw [checkToken, Token.Allowed, ← Bool.or_eq_true]
    split
    · rename_i h
      exact iff_of_true rfl h
    · rename_i h
      exact iff_of_false (by simp) h
  | «variable» name =>
    rw [checkToken, Token.Allowed]
    split <;> simp

/-- The check of one token reports what is wrong with the token. -/
theorem checkToken_eq_error_iff {token : Token} {fault : RequestFault} :
    kind.checkToken readable token = .error fault ↔
      ¬ token.Allowed kind readable ∧ fault = token.refusal := by
  rw [← checkToken_eq_ok_iff]
  cases token with
  | dollar name =>
    rw [checkToken, Token.refusal]
    split <;> simp [eq_comm]
  | «variable» name =>
    rw [checkToken, Token.refusal]
    split <;> simp [eq_comm]

theorem checkTokens_eq_ok_iff {tokens : List Token} :
    kind.checkTokens readable tokens = .ok () ↔
      ∀ token ∈ tokens, token.Allowed kind readable := by
  induction tokens with
  | nil => simp [checkTokens]
  | cons token rest ih =>
    rw [checkTokens, List.forall_mem_cons, ← checkToken_eq_ok_iff, ← ih]
    cases kind.checkToken readable token with
    | ok _ => simp
    | error _ => simp

/-- The first token that is not allowed is reported. -/
theorem exists_of_checkTokens_eq_error {tokens : List Token} {fault : RequestFault}
    (h : kind.checkTokens readable tokens = .error fault) :
    ∃ before token after, tokens = before ++ token :: after ∧
      (∀ other ∈ before, other.Allowed kind readable) ∧ ¬ token.Allowed kind readable ∧
      fault = token.refusal := by
  induction tokens with
  | nil => cases h
  | cons token rest ih =>
    rw [checkTokens] at h
    cases htoken : kind.checkToken readable token with
    | error own =>
      rw [htoken] at h
      obtain rfl : own = fault := by simpa using h
      obtain ⟨hrefused, hfault⟩ := checkToken_eq_error_iff.1 htoken
      exact ⟨[], token, rest, rfl, List.forall_mem_nil _, hrefused, hfault⟩
    | ok _ =>
      rw [htoken] at h
      obtain ⟨before, refused, after, rfl, hbefore, hrefused, hfault⟩ := ih h
      exact ⟨token :: before, refused, after, rfl,
        List.forall_mem_cons.2 ⟨checkToken_eq_ok_iff.1 htoken, hbefore⟩, hrefused, hfault⟩

theorem checkTokens_append (first second : List Token) :
    kind.checkTokens readable (first ++ second) =
      match kind.checkTokens readable first with
      | .ok () => kind.checkTokens readable second
      | .error fault => .error fault := by
  induction first with
  | nil => rfl
  | cons token rest ih =>
    rw [List.cons_append, checkTokens, checkTokens]
    cases kind.checkToken readable token with
    | ok _ => exact ih
    | error fault => rfl

-- The walk through a value meets its texts in the order in which they are listed,
-- and stops where the check of the list stops.
mutual

theorem checkValue_eq : ∀ value : Json, kind.checkValue readable value =
    kind.checkTokens readable (value.texts.flatMap Token.ofText)
  | .null => rfl
  | .bool _ => rfl
  | .integer _ => rfl
  | .double _ => rfl
  | .string text => by
    rw [checkValue, checkText, Json.texts, List.flatMap_cons, List.flatMap_nil, List.append_nil]
  | .array items => by rw [checkValue, Json.texts, checkItems_eq items]
  | .object members => by rw [checkValue, Json.texts, checkMembers_eq members]

theorem checkItems_eq : ∀ items : List Json, kind.checkItems readable items =
    kind.checkTokens readable ((Json.itemsTexts items).flatMap Token.ofText)
  | [] => rfl
  | item :: rest => by
    rw [checkItems, checkValue_eq item, checkItems_eq rest, Json.itemsTexts, List.flatMap_append]
    exact (checkTokens_append _ _).symm

/-- The check of an object is the check of all tokens in its texts, in order. -/
theorem checkMembers_eq : ∀ members : List (String × Json), kind.checkMembers readable members =
    kind.checkTokens readable ((Json.membersTexts members).flatMap Token.ofText)
  | [] => rfl
  | (key, value) :: rest => by
    rw [checkMembers, Json.membersTexts, List.cons_append, List.flatMap_cons, List.flatMap_append,
      checkTokens_append, checkTokens_append, checkText, checkValue_eq value, checkMembers_eq rest]
    cases kind.checkTokens readable (Token.ofText key) with
    | error fault => rfl
    | ok _ =>
      cases kind.checkTokens readable (value.texts.flatMap Token.ofText) with
      | error fault => rfl
      | ok _ => rfl

end

/-- The members of an object pass exactly if all of their texts do, the keys
among them. -/
theorem checkMembers_eq_ok_iff {members : List (String × Json)} :
    kind.checkMembers readable members = .ok () ↔
      ∀ text ∈ Json.membersTexts members, kind.AllowsText readable text := by
  rw [checkMembers_eq, checkTokens_eq_ok_iff, List.forall_mem_flatMap]
  rfl

/-- A fragment becomes a document exactly if it is an object whose texts are
all allowed, and then the document is the stored form of the object. -/
theorem toDocument_eq_ok_iff {text : String} {document : Document} :
    kind.toDocument readable text = .ok document ↔
      ∃ members, kind.read text = .ok members ∧
        (∀ text ∈ Json.membersTexts members, kind.AllowsText readable text) ∧
        document = Bson.ofMembers members := by
  rw [toDocument]
  cases kind.read text with
  | error fault => simp
  | ok members =>
    simp only [Except.ok.injEq, exists_eq_left', ← checkMembers_eq_ok_iff]
    cases kind.checkMembers readable members with
    | error fault => simp
    | ok _ => simp [eq_comm]

/-- The store receives no text that has not been checked. -/
theorem allowsText_of_toDocument {text : String} {document : Document}
    (h : kind.toDocument readable text = .ok document) :
    ∀ text ∈ Bson.entriesTexts document, kind.AllowsText readable text := by
  obtain ⟨members, -, hallowed, rfl⟩ := toDocument_eq_ok_iff.1 h
  rw [Bson.entriesTexts_ofMembers]
  exact hallowed

/-- A fragment is read where it is the text of a JSON object. -/
theorem read_eq_ok_iff {text : String} {members : Assoc Json} :
    kind.read text = .ok members ↔
      (RawJson.read? text).bind Json.ofRaw? = some (.object members) := by
  unfold read
  cases (RawJson.read? text).bind Json.ofRaw? with
  | none => simp
  | some value => cases value <;> simp

/-- The members of a fragment have different names. -/
theorem distinct_of_read {text : String} {members : Assoc Json}
    (h : kind.read text = .ok members) : members.Distinct := by
  obtain ⟨raw, -, hvalue⟩ := Option.bind_eq_some_iff.1 (read_eq_ok_iff.1 h)
  exact Json.distinct_of_ofRawWithin? hvalue

/-- The entries of a document made from a fragment have different names. -/
theorem distinct_of_toDocument {text : String} {document : Document}
    (h : kind.toDocument readable text = .ok document) : document.Distinct := by
  obtain ⟨members, hread, -, rfl⟩ := toDocument_eq_ok_iff.1 h
  rw [Assoc.Distinct, Bson.keys_ofMembers]
  exact distinct_of_read hread

end FragmentKind

end DocGate
