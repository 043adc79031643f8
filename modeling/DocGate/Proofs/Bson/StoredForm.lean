import DocGate.Proofs.Cast.Integers
import DocGate.Proofs.Bson.Equality
import DocGate.Proofs.Grammar.Admission

/-!
# The stored form of a JSON value

A fragment is checked as JSON, but the store receives a document.  The check means
something for the store only if the document says what the JSON says.

There are four groups.

* Places.  `Json.partAt?` and `Bson.partAt?` give the value at a place in a value, and
  `Json.StoredAs` says what one value is stored as, the values in it aside.  It holds at
  every place of a value and its stored form (`Bson.storedAs_partAt?`).
* Reading back.  `Bson.toJson?` reads a JSON value from a stored one.  A value whose
  integers have 64 bits is read back from its stored form, so different values have
  different stored forms.
* Equality.  The stored forms of such values are the same for the store just if the
  values are the same as JSON (`Bson.same_ofJson`).
* Names.  In an object that is read from a text no name occurs twice, at any depth, and so
  none does in its document (`Bson.namesDistinct_of_read`).

`Bson.ofMembers_faithful` puts them together.
-/

namespace DocGate

/-! ## Places -/

namespace Json

/-- The values that stand directly in a value, in order. -/
def parts : Json → List Json
  | .array items => items
  | .object members => members.map Prod.snd
  | _ => []

/-- The value at a place, which is given by positions from the outside in. -/
def partAt? : Json → List Nat → Option Json
  | value, [] => some value
  | value, position :: rest => value.parts[position]?.bind fun part => part.partAt? rest

end Json

namespace Bson

/-- The values that stand directly in a value, in order. -/
def parts : Bson → List Bson
  | .array items => items
  | .document entries => entries.map Prod.snd
  | _ => []

/-- The value at a place, which is given by positions from the outside in. -/
def partAt? : Bson → List Nat → Option Bson
  | value, [] => some value
  | value, position :: rest => value.parts[position]?.bind fun part => part.partAt? rest

end Bson

/-- What a JSON value is stored as, the values in it aside.  An integer goes into the
narrowest type that holds it and becomes a double if none does; an object becomes a document
with the same names in the same order, whatever the names are. -/
inductive Json.StoredAs : Json → Bson → Prop
  | null : StoredAs .null .null
  | bool (value : Bool) : StoredAs (.bool value) (.bool value)
  | string (text : String) : StoredAs (.string text) (.string text)
  | double (value : Double) : StoredAs (.double value) (.double value)
  | integer {n : Int} {stored : Bson} (h : Bson.Narrowest n stored) : StoredAs (.integer n) stored
  | wide {n : Int} (h : ¬(-2 ^ 63 ≤ n ∧ n < 2 ^ 63)) :
      StoredAs (.integer n) (.double (.ofInt n))
  | array {items : List Json} {stored : List Bson} (h : stored.length = items.length) :
      StoredAs (.array items) (.array stored)
  | object {members : Assoc Json} {entries : Document} (h : entries.keys = members.keys) :
      StoredAs (.object members) (.document entries)

namespace Bson

theorem narrowest_ofInt {n : Int} (h : -2 ^ 63 ≤ n ∧ n < 2 ^ 63) : Narrowest n (ofInt n) := by
  obtain ⟨stored, hstored, hnarrowest⟩ := exists_ofInt? h
  rwa [ofInt, hstored]

/-- An integer has a type that holds it, or it becomes a double. -/
theorem ofInt_cases (n : Int) :
    Narrowest n (ofInt n) ∨ ¬(-2 ^ 63 ≤ n ∧ n < 2 ^ 63) ∧ ofInt n = .double (.ofInt n) := by
  by_cases h : -2 ^ 63 ≤ n ∧ n < 2 ^ 63
  · exact .inl (narrowest_ofInt h)
  · exact .inr ⟨h, by rw [ofInt, ofInt?_eq_none h]; rfl⟩

theorem isScalar_of_narrowest {n : Int} {stored : Bson} (h : Narrowest n stored) :
    stored.isScalar = true := by
  cases h with
  | int32 n => rfl
  | int64 n => rfl

/-- The stored form of an integer has no parts. -/
theorem isScalar_ofInt (n : Int) : (ofInt n).isScalar = true := by
  obtain hnarrowest | ⟨-, hdouble⟩ := ofInt_cases n
  · exact isScalar_of_narrowest hnarrowest
  · rw [hdouble]
    rfl

theorem storedAs_ofJson (value : Json) : value.StoredAs (ofJson value) := by
  cases value with
  | null => exact .null
  | bool value => exact .bool value
  | integer n =>
    obtain hnarrowest | ⟨hwide, hdouble⟩ := ofInt_cases n
    · exact .integer hnarrowest
    · rw [ofJson, hdouble]
      exact .wide hwide
  | double value => exact .double value
  | string text => exact .string text
  | array items => exact .array (by rw [ofItems_eq_map, List.length_map])
  | object members => exact .object (keys_ofMembers members)

theorem parts_eq_nil {value : Bson} (h : value.isScalar = true) : value.parts = [] := by
  cases value with
  | array items => cases h
  | document entries => cases h
  | _ => rfl

/-- The parts of a value are stored one by one. -/
theorem parts_ofJson (value : Json) : (ofJson value).parts = value.parts.map ofJson := by
  cases value with
  | integer n => exact parts_eq_nil (isScalar_ofInt n)
  | array items => exact ofItems_eq_map items
  | object members =>
    rw [ofJson, parts, Json.parts, ofMembers_eq_map, List.map_map, List.map_map]
    rfl
  | _ => rfl

/-- Storing a value and going to a place in it can be exchanged. -/
theorem partAt?_ofJson (value : Json) (place : List Nat) :
    (ofJson value).partAt? place = (value.partAt? place).map ofJson := by
  induction place generalizing value with
  | nil => rfl
  | cons position rest ih =>
    rw [partAt?, Json.partAt?, parts_ofJson, List.getElem?_map]
    cases value.parts[position]? with
    | none => rfl
    | some part => exact ih part

/-- A value and its stored form have the same places, with matching values. -/
theorem storedAs_partAt? (value : Json) (place : List Nat) :
    Option.Rel Json.StoredAs (value.partAt? place) ((ofJson value).partAt? place) := by
  rw [partAt?_ofJson]
  cases value.partAt? place with
  | none => exact .none
  | some part => exact .some (storedAs_ofJson part)

end Bson

/-! ## Integers of 64 bits -/

namespace Json

mutual

/-- The integers in a value, at every depth. -/
def integers : Json → List Int
  | .integer n => [n]
  | .array items => itemsIntegers items
  | .object members => membersIntegers members
  | .null => []
  | .bool _ => []
  | .double _ => []
  | .string _ => []

/-- The integers in the items of an array. -/
def itemsIntegers : List Json → List Int
  | [] => []
  | item :: rest => integers item ++ itemsIntegers rest

/-- The integers in the members of an object. -/
def membersIntegers : List (String × Json) → List Int
  | [] => []
  | (_, value) :: rest => integers value ++ membersIntegers rest

end

/-- Whether every integer in a value, at every depth, is a signed number of 64 bits. -/
def IntegersFit (value : Json) : Prop :=
  ∀ n ∈ value.integers, -2 ^ 63 ≤ n ∧ n < 2 ^ 63

instance (value : Json) : Decidable value.IntegersFit :=
  inferInstanceAs (Decidable (∀ n ∈ value.integers, -2 ^ 63 ≤ n ∧ n < 2 ^ 63))

theorem integersFit_integer_iff {n : Int} :
    (integer n).IntegersFit ↔ -2 ^ 63 ≤ n ∧ n < 2 ^ 63 := by
  rw [IntegersFit, integers, List.forall_mem_singleton]

theorem integersFit_array_cons_iff {item : Json} {rest : List Json} :
    (array (item :: rest)).IntegersFit ↔ item.IntegersFit ∧ (array rest).IntegersFit := by
  rw [IntegersFit, integers, itemsIntegers, List.forall_mem_append]
  rfl

theorem integersFit_object_cons_iff {key : String} {value : Json} {rest : List (String × Json)} :
    (object ((key, value) :: rest)).IntegersFit ↔
      value.IntegersFit ∧ (object rest).IntegersFit := by
  rw [IntegersFit, integers, membersIntegers, List.forall_mem_append]
  rfl

theorem IntegersFit.of_mem {members : Assoc Json} (h : (object members).IntegersFit)
    {member : String × Json} (hmem : member ∈ members) : member.2.IntegersFit := by
  induction members with
  | nil => cases hmem
  | cons first rest ih =>
    obtain ⟨hfirst, hrest⟩ := integersFit_object_cons_iff.1 h
    rcases List.mem_cons.1 hmem with rfl | hlater
    · exact hfirst
    · exact ih hrest hlater

/-- An integer that fits is stored in the narrowest type that holds it. -/
theorem IntegersFit.narrowest {n : Int} (h : (integer n).IntegersFit) :
    Bson.Narrowest n (Bson.ofJson (.integer n)) :=
  Bson.narrowest_ofInt (integersFit_integer_iff.1 h)

end Json

namespace Bson

/-! ## Reading back -/

mutual

/-- The JSON value that a stored value comes from, if JSON has its type. -/
def toJson? : Bson → Option Json
  | .null => some .null
  | .bool value => some (.bool value)
  | .int32 n => some (.integer n.toInt)
  | .int64 n => some (.integer n.toInt)
  | .double value => some (.double value)
  | .string text => some (.string text)
  | .array items => (itemsToJson? items).map .array
  | .document entries => (entriesToJson? entries).map .object
  | _ => none

/-- The JSON values that stored items come from. -/
def itemsToJson? : List Bson → Option (List Json)
  | [] => some []
  | item :: rest =>
    match toJson? item, itemsToJson? rest with
    | some value, some values => some (value :: values)
    | _, _ => none

/-- The members that entries come from. -/
def entriesToJson? : List (String × Bson) → Option (List (String × Json))
  | [] => some []
  | (key, stored) :: rest =>
    match toJson? stored, entriesToJson? rest with
    | some value, some members => some ((key, value) :: members)
    | _, _ => none

end

theorem toJson?_of_narrowest {n : Int} {stored : Bson} (h : Narrowest n stored) :
    stored.toJson? = some (.integer n) := by
  cases h with
  | int32 n => rfl
  | int64 n => rfl

mutual

/-- A value is read back from its stored form. -/
theorem toJson?_ofJson : ∀ {value : Json}, value.IntegersFit →
    (ofJson value).toJson? = some value
  | .null, _ => rfl
  | .bool _, _ => rfl
  | .integer _, h => toJson?_of_narrowest h.narrowest
  | .double _, _ => rfl
  | .string _, _ => rfl
  | .array items, h => by rw [ofJson, toJson?, itemsToJson?_ofItems h, Option.map_some]
  | .object members, h => by rw [ofJson, toJson?, entriesToJson?_ofMembers h, Option.map_some]

theorem itemsToJson?_ofItems : ∀ {items : List Json}, (Json.array items).IntegersFit →
    itemsToJson? (ofItems items) = some items
  | [], _ => rfl
  | item :: rest, h => by
    obtain ⟨hitem, hrest⟩ := Json.integersFit_array_cons_iff.1 h
    rw [ofItems, itemsToJson?, toJson?_ofJson hitem, itemsToJson?_ofItems hrest]

theorem entriesToJson?_ofMembers : ∀ {members : List (String × Json)},
    (Json.object members).IntegersFit → entriesToJson? (ofMembers members) = some members
  | [], _ => rfl
  | (key, value) :: rest, h => by
    obtain ⟨hvalue, hrest⟩ := Json.integersFit_object_cons_iff.1 h
    rw [ofMembers, entriesToJson?, toJson?_ofJson hvalue, entriesToJson?_ofMembers hrest]

end

/-- Different objects are stored as different documents. -/
theorem ofMembers_inj {members others : Assoc Json} (h : (Json.object members).IntegersFit)
    (h' : (Json.object others).IntegersFit) (heq : ofMembers members = ofMembers others) :
    members = others := by
  have hmembers := entriesToJson?_ofMembers h
  rw [heq, entriesToJson?_ofMembers h'] at hmembers
  exact (Option.some.inj hmembers).symm

end Bson

/-! ## Equality -/

namespace Json

mutual

/-- Whether two values are the same: an integer is no double, doubles compare by value,
and the order of the members of an object does not matter. -/
def same : Json → Json → Bool
  | .null, .null => true
  | .bool a, .bool b => a == b
  | .integer a, .integer b => a == b
  | .double a, .double b => a.equals b
  | .string a, .string b => a == b
  | .array as, .array bs => sameItems as bs
  | .object as, .object bs => as.length == bs.length && sameMembers as bs
  | _, _ => false

/-- Whether two lists hold the same values in the same order. -/
def sameItems : List Json → List Json → Bool
  | [], [] => true
  | a :: as, b :: bs => same a b && sameItems as bs
  | _, _ => false

/-- Whether every member of the first list has the same value in the second. -/
def sameMembers : List (String × Json) → Assoc Json → Bool
  | [], _ => true
  | (key, a) :: rest, bs =>
    (match bs.get? key with
      | some b => same a b
      | none => false) && sameMembers rest bs

end

end Json

namespace Bson

/-- Whether a value is of one of the two integer types. -/
def isInteger : Bson → Bool
  | .int32 _ => true
  | .int64 _ => true
  | _ => false

theorem same_of_narrowest {n m : Int} {a b : Bson} (ha : Narrowest n a) (hb : Narrowest m b) :
    a.same b = (n == m) := by
  cases ha with
  | int32 x =>
    cases hb with
    | int32 y => rw [same, Bool.eq_iff_iff, beq_iff_eq, beq_iff_eq, Int32.toInt_inj]
    | int64 y hwide =>
      have hne : x.toInt ≠ y.toInt := fun e => hwide (e ▸ ⟨x.le_toInt, x.toInt_lt⟩)
      exact (beq_false_of_ne hne).symm
  | int64 x hwide =>
    cases hb with
    | int32 y =>
      have hne : x.toInt ≠ y.toInt := fun e => hwide (e ▸ ⟨y.le_toInt, y.toInt_lt⟩)
      exact (beq_false_of_ne hne).symm
    | int64 y _ => rw [same, Bool.eq_iff_iff, beq_iff_eq, beq_iff_eq, Int64.toInt_inj]

/-- Only an integer is the same as an integer. -/
theorem same_of_narrowest_left {n : Int} {a b : Bson} (ha : Narrowest n a)
    (hb : b.isInteger = false) : a.same b = false := by
  cases ha <;> cases b <;> first | rfl | cases hb

theorem same_of_narrowest_right {n : Int} {a b : Bson} (ha : a.isInteger = false)
    (hb : Narrowest n b) : a.same b = false := by
  cases hb <;> cases a <;> first | rfl | cases ha

theorem same_ofJson_integer_left {n : Int} {b : Json} (hn : (Json.integer n).IntegersFit)
    (hb : b.IntegersFit) :
    (ofJson (.integer n)).same (ofJson b) = (Json.integer n).same b := by
  cases b with
  | integer m => exact same_of_narrowest hn.narrowest hb.narrowest
  | _ => exact same_of_narrowest_left hn.narrowest rfl

theorem same_ofJson_integer_right {a : Json} {m : Int} (ha : a.IntegersFit)
    (hm : (Json.integer m).IntegersFit) :
    (ofJson a).same (ofJson (.integer m)) = a.same (.integer m) := by
  cases a with
  | integer n => exact same_of_narrowest ha.narrowest hm.narrowest
  | _ => exact same_of_narrowest_right rfl hm.narrowest

mutual

/-- The store's equality of stored forms is the equality of the values. -/
theorem same_ofJson (a b : Json) (ha : a.IntegersFit) (hb : b.IntegersFit) :
    (ofJson a).same (ofJson b) = a.same b := by
  -- The type of a stored integer depends on its size, so the definition does not say how it
  -- compares.  All other pairs of different types are told apart by the definition.
  cases a with
  | integer n => exact same_ofJson_integer_left ha hb
  | array items =>
    cases b with
    | integer m => exact same_ofJson_integer_right ha hb
    | array others => exact sameItems_ofItems items others ha hb
    | _ => rfl
  | object members =>
    cases b with
    | integer m => exact same_ofJson_integer_right ha hb
    | object others =>
      rw [ofJson, ofJson, same, Json.same, sameEntries_ofMembers members others ha hb,
        ofMembers_eq_map, ofMembers_eq_map, List.length_map, List.length_map]
    | _ => rfl
  | _ =>
    cases b with
    | integer m => exact same_ofJson_integer_right ha hb
    | _ => rfl

theorem sameItems_ofItems : ∀ (items others : List Json), (Json.array items).IntegersFit →
    (Json.array others).IntegersFit →
      sameItems (ofItems items) (ofItems others) = Json.sameItems items others
  | [], [], _, _ => rfl
  | [], _ :: _, _, _ => rfl
  | _ :: _, [], _, _ => rfl
  | item :: rest, other :: others, h, h' => by
    obtain ⟨hitem, hrest⟩ := Json.integersFit_array_cons_iff.1 h
    obtain ⟨hother, hothers⟩ := Json.integersFit_array_cons_iff.1 h'
    rw [ofItems, ofItems, sameItems, Json.sameItems, same_ofJson item other hitem hother,
      sameItems_ofItems rest others hrest hothers]

theorem sameEntries_ofMembers : ∀ (members others : Assoc Json),
    (Json.object members).IntegersFit → (Json.object others).IntegersFit →
      sameEntries (ofMembers members) (ofMembers others) = Json.sameMembers members others
  | [], _, _, _ => rfl
  | (key, value) :: rest, others, h, h' => by
    obtain ⟨hvalue, hrest⟩ := Json.integersFit_object_cons_iff.1 h
    rw [ofMembers, sameEntries, Json.sameMembers, sameEntries_ofMembers rest others hrest h',
      get?_ofMembers]
    cases hother : others.get? key with
    | none => rfl
    | some other =>
      have hfits := h'.of_mem (Assoc.mem_of_get?_eq_some hother)
      exact congrArg (· && _) (same_ofJson value other hvalue hfits)

end

end Bson

/-! ## Names -/

/-- What is read from a list comes from its elements. -/
theorem exists_of_mem_mapM {α β : Type} {read : α → Option β} {sources : List α}
    {values : List β} (h : sources.mapM read = some values) :
    ∀ value ∈ values, ∃ source ∈ sources, read source = some value := by
  induction sources generalizing values with
  | nil =>
    rw [List.mapM_nil] at h
    obtain rfl := Option.some.inj h
    exact List.forall_mem_nil _
  | cons source rest ih =>
    rw [List.mapM_cons] at h
    obtain ⟨first, hfirst, hmore⟩ := Option.bind_eq_some_iff.1 h
    obtain ⟨others, hothers, hvalues⟩ := Option.bind_eq_some_iff.1 hmore
    obtain rfl := Option.some.inj hvalues
    refine List.forall_mem_cons.2 ⟨⟨source, List.mem_cons_self, hfirst⟩, ?_⟩
    intro value hvalue
    obtain ⟨own, hown, hread⟩ := ih hothers value hvalue
    exact ⟨own, List.mem_cons_of_mem _ hown, hread⟩

namespace Bson

/-- The stored form of what a tree of JSON stands for has no name twice in a document. -/
theorem namesDistinct_of_ofRawWithin? {depth : Nat} {raw : RawJson} {value : Json}
    (h : Json.ofRawWithin? depth raw = some value) : (ofJson value).NamesDistinct := by
  -- The cases are those of the reader.  The seventh and the fifth are an object and an array
  -- where nothing may nest any more, the eighth and the sixth are those where it may.
  fun_induction Json.ofRawWithin? depth raw generalizing value with
  | case1 | case2 =>
    obtain rfl := Option.some.inj h
    exact .scalar rfl
  | case3 depth numeral =>
    obtain ⟨n, rfl⟩ | ⟨d, rfl⟩ := Json.ofNumeral?_cases h
    · exact .scalar (isScalar_ofInt n)
    · exact .scalar rfl
  | case4 depth pieces =>
    obtain ⟨text, -, rfl⟩ := Option.map_eq_some_iff.1 h
    exact .scalar rfl
  | case5 | case7 => cases h
  | case6 depth items ih =>
    obtain ⟨values, hvalues, rfl⟩ := Option.map_eq_some_iff.1 h
    rw [ofJson, ofItems_eq_map]
    refine .array (List.forall_mem_map.2 fun own hown => ?_)
    obtain ⟨item, -, hitem⟩ := exists_of_mem_mapM hvalues own hown
    exact ih item hitem
  | case8 depth members ih =>
    obtain ⟨written, hwritten, rfl⟩ := Option.map_eq_some_iff.1 h
    rw [ofJson, ofMembers_ofList, ofMembers_eq_map]
    refine namesDistinct_ofList (List.forall_mem_map.2 fun own hown => ?_)
    obtain ⟨member, -, hmember⟩ := exists_of_mem_mapM hwritten own hown
    obtain ⟨key, -, hvalue⟩ := Option.bind_eq_some_iff.1 hmember
    obtain ⟨inner, hinner, hpair⟩ := Option.bind_eq_some_iff.1 hvalue
    obtain rfl := Option.some.inj hpair
    exact ih member hinner

/-- No name occurs twice in a document that is made from a fragment, at any depth. -/
theorem namesDistinct_of_read {kind : FragmentKind} {text : String} {members : Assoc Json}
    (h : kind.read text = .ok members) : NamesDistinct (.document (ofMembers members)) := by
  obtain ⟨raw, -, hvalue⟩ := Option.bind_eq_some_iff.1 (FragmentKind.read_eq_ok_iff.1 h)
  exact namesDistinct_of_ofRawWithin? hvalue

/-- The document made from an object says what the object says.  Objects whose integers
have 64 bits give equal documents only if they are equal, and documents that are the same
for the store just if they are the same as JSON.  An object and its document have the same
places, and what stands at a place is stored as it is: an integer in the narrowest type that
holds it, an object as a document with the same names in the same order.  The document made
from a fragment is that of the object that was read, and no name occurs twice in it. -/
theorem ofMembers_faithful :
    (∀ members others : Assoc Json,
      (Json.object members).IntegersFit → (Json.object others).IntegersFit →
        (ofMembers members = ofMembers others → members = others) ∧
        same (.document (ofMembers members)) (.document (ofMembers others)) =
          Json.same (.object members) (.object others)) ∧
    (∀ (members : Assoc Json) (place : List Nat),
      Option.Rel Json.StoredAs ((Json.object members).partAt? place)
        (partAt? (.document (ofMembers members)) place)) ∧
    ∀ (kind : FragmentKind) (readable : String → Bool) (text : String) (document : Document),
      kind.toDocument readable text = .ok document →
        ∃ members, kind.read text = .ok members ∧ document = ofMembers members ∧
          NamesDistinct (.document document) := by
  refine ⟨fun members others h h' => ⟨ofMembers_inj h h', ?equality⟩, ?places, ?fragments⟩
  case equality => exact same_ofJson (.object members) (.object others) h h'
  case places =>
    intro members place
    exact storedAs_partAt? (.object members) place
  case fragments =>
    intro kind readable text document h
    obtain ⟨members, hread, -, rfl⟩ := FragmentKind.toDocument_eq_ok_iff.1 h
    exact ⟨members, hread, rfl, namesDistinct_of_read hread⟩

/-- An object with names of extended JSON and with integers at the limits of the types. -/
def extended : Assoc Json :=
  [("_id", .object [("$oid", .string "64b0")]),
   ("at", .object [("$date", .object [("$numberLong", .integer 2147483648)])]),
   ("sizes", .array [.integer 2147483647, .integer (-9223372036854775808)])]

/-- The same object in another order, an integer in a member with a name of extended JSON,
and a filter. -/
theorem ofMembers_faithful_extended :
    ofMembers extended ≠ ofMembers extended.reverse ∧
    same (.document (ofMembers extended)) (.document (ofMembers extended.reverse)) = true ∧
    (∃ stored, partAt? (.document (ofMembers extended)) [1, 0, 0] = some stored ∧
      Narrowest 2147483648 stored) ∧
    FragmentKind.filter.toDocument (fun _ => false)
        "\x7b\"size\":\x7b\"$gte\":2147483648\x7d\x7d" =
      .ok [("size", .document [("$gte", .int64 2147483648)])] ∧
    NamesDistinct (.document [("size", .document [("$gte", .int64 2147483648)])]) := by
  have hfits : (Json.object extended).IntegersFit := by decide +kernel
  have hfits' : (Json.object extended.reverse).IntegersFit := by decide +kernel
  obtain ⟨hequal, hsame⟩ := ofMembers_faithful.1 extended extended.reverse hfits hfits'
  refine (fun hfilter => ⟨?order, hsame.trans rfl, ?place, hfilter, ?names⟩) ?filter
  case order =>
    intro h
    have hkeys : Assoc.keys extended = Assoc.keys extended.reverse := congrArg Assoc.keys (hequal h)
    exact absurd hkeys (by decide)
  case place =>
    have hplace := ofMembers_faithful.2.1 extended [1, 0, 0]
    generalize partAt? (.document (ofMembers extended)) [1, 0, 0] = found at hplace
    cases hplace with
    | some hstored =>
      cases hstored with
      | integer hnarrowest => exact ⟨_, rfl, hnarrowest⟩
      | wide hwide => exact absurd (by decide) hwide
  case filter => decide +kernel
  case names =>
    obtain ⟨-, -, -, hnames⟩ := ofMembers_faithful.2.2 _ _ _ _ hfilter
    exact hnames

-- An integer beyond 64 signed bits is not told from the double that it is stored as.
example : ofMembers [("n", .integer (2 ^ 63))] =
    ofMembers [("n", .double (Double.ofInt (2 ^ 63)))] := rfl

end Bson

end DocGate
