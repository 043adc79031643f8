import DocGate.Definition.Encode
import DocGate.Json.Record

/-!
# Records read back

A record written as an object is read back by its names, and each kind of
field value is read back as it was given.

* `RawJson.record?_ofMembers` reads the members of an object whose keys are
  names of the record, in their order.
* The values: texts, truth values and integers of 32 bits, the names of a
  choice, lists (`RawJson.list?_array`), and a value that may be absent
  (`RawJson.optional?_map`).
* `RawJson.nesting` counts how many arrays and objects stand in each other,
  which is what the readers of records bound.
-/

namespace DocGate

/-- Values that are each read back as they were are read back as a list. -/
theorem mapM_map_eq_some {α β : Type} {encode : α → β} {decode : β → Option α} {values : List α}
    (h : ∀ value ∈ values, decode (encode value) = some value) :
    (values.map encode).mapM decode = some values := by
  induction values with
  | nil => rfl
  | cons value rest ih =>
    obtain ⟨hvalue, hrest⟩ := List.forall_mem_cons.1 h
    rw [List.map_cons, List.mapM_cons, hvalue, ih hrest]
    rfl

namespace RawJson

/-! ## Records -/

/-- The members of an object are the fields that the record gives, if their
keys are among its names and in their order. -/
theorem record?_ofMembers {names : List String} {members : Assoc RawJson}
    (hkeys : members.keys.Sublist names) (hnames : names.Nodup) :
    record? names (ofMembers members) = some members := by
  have hread : (members.map fun member => (StringPiece.ofText member.1, member.2)).mapM
      (fun member => (StringPiece.text? member.1).map fun key => (key, member.2)) =
      some members := by
    refine mapM_map_eq_some fun member _ => ?_
    rw [StringPiece.text?_ofText]
    rfl
  have hknown : members.filter (fun entry => names.contains entry.1) = members := by
    rw [List.filter_eq_self]
    intro member hmember
    exact List.contains_iff_mem.2 (hkeys.subset (Assoc.mem_keys_of_mem hmember))
  have honce : hasRepetition members.keys = false :=
    (hasRepetition_eq_false_iff _).2 (hnames.sublist hkeys)
  rw [ofMembers, record?, hread]
  simp only [hknown, honce, Bool.false_eq_true, if_false]

theorem get?_optionalMember (name key : String) (value : Option RawJson) :
    Assoc.get? (optionalMember name value) key = if name = key then value else none := by
  cases value with
  | none => simp [optionalMember, Assoc.get?]
  | some raw => simp [optionalMember, Assoc.get?]

theorem keys_optionalMember (name : String) (value : Option RawJson) :
    (Assoc.keys (optionalMember name value)).Sublist [name] := by
  cases value with
  | none => exact List.nil_sublist _
  | some raw => exact List.Sublist.refl _

/-! ## Values of fields -/

theorem text?_ofText (text : String) : text? (ofText text) = some text :=
  StringPiece.text?_ofText text

/-- A name is read as what it stands for. -/
theorem choice?_ofText {α : Type} (choices : Assoc α) (depth : Nat) (name : String) :
    choice? choices depth (ofText name) = choices.get? name := by
  rw [ofText, choice?, StringPiece.text?_ofText]
  rfl

theorem int32?_ofInt (n : Int32) : int32? (ofInt n.toInt) = some n := by
  have hlow := n.le_toInt
  have hhigh := n.toInt_lt
  by_cases hneg : n.toInt < 0
  · have hmagnitude : -(n.toInt.natAbs : Int) = n.toInt := by omega
    have hrange : 0 < n.toInt.natAbs ∧ n.toInt.natAbs ≤ 2 ^ 31 := by omega
    rw [ofInt, decide_eq_true hneg, int32?, if_pos rfl, if_pos hrange, hmagnitude,
      Int32.ofInt_toInt]
  · have hmagnitude : (n.toInt.natAbs : Int) = n.toInt := by omega
    have hrange : n.toInt.natAbs < 2 ^ 31 := by omega
    rw [ofInt, decide_eq_false hneg, int32?, if_neg Bool.false_ne_true, if_pos hrange, hmagnitude,
      Int32.ofInt_toInt]

/-- A value that may be absent is read back, absent or not; a value that is
given may not look absent. -/
theorem optional?_map {α : Type} {encode : α → RawJson} {decode : RawJson → Option α}
    {value : Option α} (hnull : ∀ given, encode given ≠ .null)
    (h : ∀ given, value = some given → decode (encode given) = some given) :
    optional? decode (value.map encode) = some value := by
  cases value with
  | none => rfl
  | some given =>
    rw [Option.map_some, optional?]
    · rw [h given rfl]
      rfl
    · exact hnull given

theorem list?_array {α : Type} {encode : α → RawJson} {decode : Nat → RawJson → Option α}
    {depth : Nat} {values : List α}
    (h : ∀ value ∈ values, decode depth (encode value) = some value) :
    list? decode (depth + 1) (.array (values.map encode)) = some values :=
  mapM_map_eq_some h

/-! ## Nesting -/

mutual

/-- How many arrays and objects stand in each other at most. -/
def nesting : RawJson → Nat
  | .array items => itemsNesting items + 1
  | .object members => membersNesting members + 1
  | .null => 0
  | .bool _ => 0
  | .number _ => 0
  | .string _ => 0

/-- The nesting in the items of an array. -/
def itemsNesting : List RawJson → Nat
  | [] => 0
  | item :: rest => max (nesting item) (itemsNesting rest)

/-- The nesting in the members of an object. -/
def membersNesting : List (List StringPiece × RawJson) → Nat
  | [] => 0
  | (_, value) :: rest => max (nesting value) (membersNesting rest)

end

theorem nesting_le_of_mem_items {item : RawJson} {items : List RawJson} (h : item ∈ items) :
    item.nesting ≤ itemsNesting items := by
  induction items with
  | nil => cases h
  | cons first rest ih =>
    rw [itemsNesting]
    rcases List.mem_cons.1 h with rfl | hrest
    · exact Nat.le_max_left _ _
    · exact Nat.le_trans (ih hrest) (Nat.le_max_right _ _)

theorem nesting_le_of_mem_members {key : List StringPiece} {value : RawJson}
    {members : List (List StringPiece × RawJson)} (h : (key, value) ∈ members) :
    value.nesting ≤ membersNesting members := by
  induction members with
  | nil => cases h
  | cons first rest ih =>
    rw [membersNesting]
    rcases List.mem_cons.1 h with rfl | hrest
    · exact Nat.le_max_left _ _
    · exact Nat.le_trans (ih hrest) (Nat.le_max_right _ _)

/-- An item nests less than its array. -/
theorem nesting_lt_array {item : RawJson} {items : List RawJson} (h : item ∈ items) :
    item.nesting < (array items).nesting :=
  Nat.lt_succ_of_le (nesting_le_of_mem_items h)

/-- The value of a member nests less than its object. -/
theorem nesting_lt_ofMembers {key : String} {value : RawJson} {members : List (String × RawJson)}
    (h : (key, value) ∈ members) : value.nesting < (ofMembers members).nesting :=
  Nat.lt_succ_of_le (nesting_le_of_mem_members
    (List.mem_map.2 ⟨(key, value), h, rfl⟩ :
      (StringPiece.ofText key, value) ∈ members.map fun member =>
        (StringPiece.ofText member.1, member.2)))

/-- A reader that gets to an array has a level left. -/
theorem exists_succ_of_nesting_array {items : List RawJson} {depth : Nat}
    (h : (array items).nesting ≤ depth) :
    ∃ lower, depth = lower + 1 ∧ ∀ item ∈ items, item.nesting ≤ lower := by
  have hpos : 0 < (array items).nesting := Nat.succ_pos _
  refine ⟨depth - 1, by omega, fun item hmem => ?_⟩
  have hlt := nesting_lt_array hmem
  omega

/-- A reader that gets to an object has a level left. -/
theorem exists_succ_of_nesting_ofMembers {members : List (String × RawJson)} {depth : Nat}
    (h : (ofMembers members).nesting ≤ depth) :
    ∃ lower, depth = lower + 1 ∧ ∀ key value, (key, value) ∈ members → value.nesting ≤ lower := by
  have hpos : 0 < (ofMembers members).nesting := Nat.succ_pos _
  refine ⟨depth - 1, by omega, fun key value hmem => ?_⟩
  have hlt := nesting_lt_ofMembers hmem
  omega

end RawJson

end DocGate
