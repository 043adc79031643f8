import DocGate.Filter.Query
import DocGate.Proofs.Grammar.Places
import DocGate.Proofs.Projection.Outcome

/-!
# What is checked is what is forwarded

A fragment is checked as JSON, and the store receives a document made from it.
Here both are tied to the tokens that stand in the texts, without the scan and
without the walk.

* `FragmentKind.Admits` is the rule for one text, in terms of where tokens
  stand, and `FragmentKind.allowsText_iff_admits` says that the scan follows it.
* `FragmentKind.forwarded_is_checked` puts the results together: what the check
  accepts, what it reports otherwise, and what the store receives after it for
  a query and for a raw projection.
-/

namespace DocGate

namespace FragmentKind

variable {kind : FragmentKind} {readable : String → Bool}

/-- Every dollar token that stands in a text has one dollar sign and is an
allowed operator or a readable field. -/
def Admits (kind : FragmentKind) (readable : String → Bool) (text : String) : Prop :=
  ∀ dollars name, Token.OccursIn dollars name text.toList →
    dollars = 1 ∧
      (kind.allows ("$" ++ String.ofList name) = true ∨ readable (String.ofList name) = true)

/-- A run makes an allowed token if it has one dollar sign and its name is
allowed. -/
theorem allowed_ofRun_iff {dollars : Nat} {name : List Char} (hpos : 0 < dollars) :
    (Token.ofRun dollars name).Allowed kind readable ↔
      dollars = 1 ∧
        (kind.allows ("$" ++ String.ofList name) = true ∨
          readable (String.ofList name) = true) := by
  by_cases hmany : 1 < dollars
  · rw [Token.ofRun, if_pos hmany]
    exact iff_of_false id fun h => by omega
  · have hone : dollars = 1 := by omega
    rw [Token.ofRun, if_neg hmany, Token.Allowed]
    exact (and_iff_right hone).symm

/-- The tokens of a text are all allowed exactly if the text is admitted. -/
theorem allowsText_iff_admits {text : String} :
    kind.AllowsText readable text ↔ kind.Admits readable text := by
  constructor
  · intro h dollars name hoccurs
    have hallowed := h _ (Token.mem_ofText_iff.2 ⟨dollars, name, rfl, hoccurs⟩)
    exact (allowed_ofRun_iff hoccurs.1).1 hallowed
  · intro h token htoken
    obtain ⟨dollars, name, rfl, hoccurs⟩ := Token.mem_ofText_iff.1 htoken
    exact (allowed_ofRun_iff hoccurs.1).2 (h dollars name hoccurs)

/-- An object passes the check exactly if all of its keys and strings are
admitted. -/
theorem checkMembers_eq_ok_iff_admits {members : List (String × Json)} :
    kind.checkMembers readable members = .ok () ↔
      ∀ text ∈ Json.membersTexts members, kind.Admits readable text := by
  rw [checkMembers_eq_ok_iff]
  exact forall₂_congr fun _ _ => allowsText_iff_admits

/-- Two dollar signs before a word character are never admitted. -/
theorem not_admits_of_run {text : String} {c : Char} {before after : List Char}
    (htext : text.toList = before ++ '$' :: '$' :: c :: after) (hword : Text.isWord c = true) :
    ¬ kind.Admits readable text := by
  obtain ⟨name, hname⟩ := Token.exists_variable_of_run htext hword
  intro h
  exact allowsText_iff_admits.2 h _ hname

/-- An object with a text that is not admitted fails the check. -/
theorem exists_error_of_not_admits {members : List (String × Json)} {text : String}
    (hmem : text ∈ Json.membersTexts members) (h : ¬ kind.Admits readable text) :
    ∃ fault, kind.checkMembers readable members = .error fault := by
  cases hcheck : kind.checkMembers readable members with
  | error fault => exact ⟨fault, rfl⟩
  | ok _ => exact absurd (checkMembers_eq_ok_iff_admits.1 hcheck text hmem) h

/-- Only a document whose texts are all admitted is made from a fragment, and
it is the stored form of the object that has been checked. -/
theorem exists_checked_of_toDocument {text : String} {document : Document}
    (h : kind.toDocument readable text = .ok document) :
    ∃ members, kind.read text = .ok members ∧ kind.checkMembers readable members = .ok () ∧
      document = Bson.ofMembers members ∧
      ∀ text ∈ Bson.entriesTexts document, kind.Admits readable text := by
  obtain ⟨members, hread, hallowed, rfl⟩ := toDocument_eq_ok_iff.1 h
  refine ⟨members, hread, checkMembers_eq_ok_iff.2 hallowed, rfl, ?_⟩
  intro text htext
  exact allowsText_iff_admits.1 (allowsText_of_toDocument h text htext)

/-- The projection that returns the identifier has no dollar token. -/
theorem admits_of_idOnly :
    ∀ text ∈ Bson.entriesTexts Projection.idOnly.entries, kind.Admits readable text := by
  have htexts : Bson.entriesTexts Projection.idOnly.entries = [Bookkeeping.idField] := rfl
  have htokens : Token.ofText Bookkeeping.idField = [] := by decide +kernel
  intro text htext
  rw [htexts, List.mem_singleton] at htext
  refine allowsText_iff_admits.1 fun token htoken => ?_
  rw [htext, htokens] at htoken
  cases htoken

/-- The check of a fragment accepts exactly the objects in which every dollar
token of every key and string, at every depth, has one dollar sign and is an
allowed operator or a readable field.  So two dollar signs before a word
character are refused, whatever may be read.  A refusal is the caller's fault;
it names the first token that is not allowed.  What a query or a raw projection
hands to the store is made from an object that has been checked, and every key
and string in it is admitted. -/
theorem forwarded_is_checked (kind : FragmentKind) (readable : String → Bool)
    (members : List (String × Json)) :
    (kind.checkMembers readable members = .ok () ↔
      ∀ text ∈ Json.membersTexts members, kind.Admits readable text) ∧
    (∀ text ∈ Json.membersTexts members, ∀ before c after,
      text.toList = before ++ '$' :: '$' :: c :: after → Text.isWord c = true →
      ∃ fault, kind.checkMembers readable members = .error fault) ∧
    (∀ fault, kind.checkMembers readable members = .error fault →
      (Failure.request fault).isRequest = true ∧
      ∃ before token after,
        (Json.membersTexts members).flatMap Token.ofText = before ++ token :: after ∧
        (∀ other ∈ before, other.Allowed kind readable) ∧
        ¬ token.Allowed kind readable ∧ fault = token.refusal) ∧
    (∀ fieldNames text document, Query.read fieldNames text = .ok document →
      ∃ checked, filter.read text = .ok checked ∧
        filter.checkMembers fieldNames.contains checked = .ok () ∧
        document = Bson.ofMembers checked ∧
        ∀ text ∈ Bson.entriesTexts document, filter.Admits fieldNames.contains text) ∧
    ∀ fieldNames request result, Projection.resolve fieldNames request = .ok result →
      request.IsRaw →
      ∃ text checked, Text.unlessBlank? request.raw = some text ∧
        projection.read text = .ok checked ∧
        projection.checkMembers
          (Projection.readable fieldNames (Columns.ofText request.columns)) checked = .ok () ∧
        (result = Projection.idOnly ∨ result.entries.Sublist (Bson.ofMembers checked)) ∧
        ∀ text ∈ Bson.entriesTexts result.entries,
          projection.Admits (Projection.readable fieldNames (Columns.ofText request.columns))
            text := by
  refine ⟨checkMembers_eq_ok_iff_admits, ?runs, ?faults, ?queries, ?projections⟩
  case runs =>
    intro text hmem before c after htext hword
    exact exists_error_of_not_admits hmem (not_admits_of_run htext hword)
  case faults =>
    intro fault h
    rw [checkMembers_eq] at h
    exact ⟨rfl, exists_of_checkTokens_eq_error h⟩
  case queries =>
    intro fieldNames text document h
    exact exists_checked_of_toDocument h
  case projections =>
    intro fieldNames request result h hraw
    obtain ⟨text, entries, htext, hread, hentries⟩ :=
      Projection.exists_toDocument_of_resolve h hraw
    obtain ⟨checked, hchecked, hcheck, rfl, hadmits⟩ := exists_checked_of_toDocument hread
    refine ⟨text, checked, htext, hchecked, hcheck, hentries, ?_⟩
    rcases hentries with rfl | hsublist
    · exact admits_of_idOnly
    · intro other hother
      exact hadmits other (Bson.entriesTexts_subset hsublist.subset other hother)

/-- A variable deep within an object, a query that refers to a field, and a raw
projection of which the columns leave a part. -/
theorem forwarded_is_checked_nested :
    (∃ fault, filter.checkMembers (fun _ => true)
      [("a", .array [.object [("b", .string "x$$ROOT.y")]])] = .error fault) ∧
    Query.read ["name"]
        "\x7b\"$expr\":\x7b\"$eq\":[\"$name\",\"\\u0024name\"]\x7d\x7d" =
      .ok [("$expr", .document [("$eq", .array [.string "$name", .string "$name"])])] ∧
    filter.Admits ["name"].contains "$name" ∧
    Projection.resolve []
        { columns := some "a", raw := some "\x7b\"b\":1,\"c\":[\"$a\"]\x7d" } =
      .ok ⟨[("c", .array [.string "$a"])]⟩ ∧
    projection.Admits (Projection.readable [] (Columns.ofText (some "a"))) "$a" := by
  refine (fun hquery hresolve => ⟨?root, hquery, ?name, hresolve, ?column⟩) ?query ?resolve
  case query => decide +kernel
  case resolve => decide +kernel
  case root =>
    obtain ⟨-, hruns, -⟩ := forwarded_is_checked filter (fun _ => true)
      [("a", .array [.object [("b", .string "x$$ROOT.y")]])]
    exact hruns "x$$ROOT.y" (by decide +kernel) ['x'] 'R' "OOT.y".toList
      (by decide +kernel) (by decide +kernel)
  case name =>
    obtain ⟨-, -, -, hqueries, -⟩ := forwarded_is_checked filter (fun _ => true) []
    obtain ⟨checked, -, -, -, hadmits⟩ := hqueries _ _ _ hquery
    exact hadmits "$name" (by decide +kernel)
  case column =>
    obtain ⟨-, -, -, -, hprojections⟩ := forwarded_is_checked projection (fun _ => true) []
    obtain ⟨text, checked, -, -, -, -, hadmits⟩ :=
      hprojections _ _ _ hresolve (by constructor <;> decide +kernel)
    exact hadmits "$a" (by decide +kernel)

end FragmentKind

end DocGate
