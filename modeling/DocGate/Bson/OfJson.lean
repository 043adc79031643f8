import DocGate.Bson.Basic
import DocGate.Json.Basic

/-!
# From JSON values to stored values

A fragment that a caller sends becomes a document entry by entry, with the
same names in the same order.  No name has a meaning here, so an object with a
member `$oid` is a document with an entry `$oid`.

An integer takes the narrower type that holds it; one beyond 64 signed bits
becomes a double.

Members and items are stored one by one (`Bson.ofMembers_eq_map`,
`Bson.ofItems_eq_map`), so names are found, written and merged in a document as
they are in the object.
-/

namespace DocGate

namespace Bson

/-- The stored form of an integer. -/
def ofInt (n : Int) : Bson :=
  (ofInt? n).getD (.double (Double.ofInt n))

mutual

/-- The stored form of a JSON value. -/
def ofJson : Json → Bson
  | .null => .null
  | .bool value => .bool value
  | .integer value => ofInt value
  | .double value => .double value
  | .string value => .string value
  | .array items => .array (ofItems items)
  | .object members => .document (ofMembers members)

/-- The stored forms of some JSON values. -/
def ofItems : List Json → List Bson
  | [] => []
  | item :: rest => ofJson item :: ofItems rest

/-- The entries for the members of a JSON object. -/
def ofMembers : List (String × Json) → List (String × Bson)
  | [] => []
  | (key, value) :: rest => (key, ofJson value) :: ofMembers rest

end

/-- The items of an array are stored one by one. -/
theorem ofItems_eq_map (items : List Json) : ofItems items = items.map ofJson := by
  induction items with
  | nil => rfl
  | cons item rest ih => rw [ofItems, ih, List.map_cons]

/-- The members of an object are stored one by one, under their names. -/
theorem ofMembers_eq_map (members : List (String × Json)) :
    ofMembers members = members.map fun member => (member.1, ofJson member.2) := by
  induction members with
  | nil => rfl
  | cons member rest ih => rw [ofMembers, ih, List.map_cons]

/-- Every member gives one entry of the same name in the same place. -/
theorem keys_ofMembers (members : Assoc Json) :
    Assoc.keys (ofMembers members) = members.keys := by
  rw [ofMembers_eq_map, Assoc.keys, List.map_map]
  rfl

theorem get?_ofMembers (members : Assoc Json) (key : String) :
    Assoc.get? (ofMembers members) key = (members.get? key).map ofJson := by
  rw [ofMembers_eq_map]
  exact Assoc.get?_map (fun _ => ofJson) members key

theorem ofMembers_set (members : Assoc Json) (key : String) (value : Json) :
    ofMembers (members.set key value) = Assoc.set (ofMembers members) key (ofJson value) := by
  rw [ofMembers_eq_map, ofMembers_eq_map]
  exact Assoc.map_set (fun _ => ofJson) members key value

theorem ofMembers_setAll (members added : Assoc Json) :
    ofMembers (members.setAll added) = Assoc.setAll (ofMembers members) (ofMembers added) := by
  induction added generalizing members with
  | nil => rfl
  | cons member rest ih =>
    obtain ⟨key, value⟩ := member
    have hrest := ih (members.set key value)
    rwa [ofMembers_set] at hrest

/-- Repeated names are merged alike before and after. -/
theorem ofMembers_ofList (members : List (String × Json)) :
    ofMembers (Assoc.ofList members) = Assoc.ofList (ofMembers members) :=
  ofMembers_setAll [] members

end Bson

end DocGate
