import DocGate.Assoc
import DocGate.Json.Raw
import DocGate.Repetition

/-!
# Records in JSON

How a value with a fixed list of named fields is written: as an object, or as
the array of the fields in their order.  In an object the order is free and
members with other names are ignored, whatever they hold; a field may not be
given twice.  In an array the last fields may be left out.

A choice among names is written as a string, or as an object with the name as
its only key and `null` as the value.
-/

namespace DocGate

namespace RawJson

/-- The fields that a record gives, among those with the given names. -/
def record? (names : List String) : RawJson → Option (Assoc RawJson)
  | .object members =>
    match members.mapM fun (member : List StringPiece × RawJson) =>
        (StringPiece.text? member.1).map fun key => (key, member.2) with
    | none => none
    | some entries =>
      let given : Assoc RawJson := entries.filter fun entry => names.contains entry.1
      if hasRepetition given.keys then none else some given
  | .array items => if items.length ≤ names.length then some (names.zip items) else none
  | _ => none

/-- A field that must be given. -/
def required? {α : Type} (decode : RawJson → Option α) : Option RawJson → Option α
  | some raw => decode raw
  | none => none

/-- A field with a value for the case that it is not given. -/
def orElse? {α : Type} (default : α) (decode : RawJson → Option α) : Option RawJson → Option α
  | some raw => decode raw
  | none => some default

/-- A field that may be absent; `null` means the same. -/
def optional? {α : Type} (decode : RawJson → Option α) : Option RawJson → Option (Option α)
  | none => some none
  | some .null => some none
  | some raw => (decode raw).map some

/-- A truth value. -/
def bool? : RawJson → Option Bool
  | .bool value => some value
  | _ => none

/-- A text. -/
def text? : RawJson → Option String
  | .string pieces => StringPiece.text? pieces
  | _ => none

/-- An integer of 32 bits, written without fraction and exponent; `-0` is none. -/
def int32? : RawJson → Option Int32
  | .number (.integer negative magnitude) =>
    if negative then
      if 0 < magnitude ∧ magnitude ≤ 2 ^ 31 then some (Int32.ofInt (-magnitude)) else none
    else if magnitude < 2 ^ 31 then some (Int32.ofInt magnitude)
    else none
  | _ => none

/-- One of the given names, where at most `depth` arrays and objects may be
nested. -/
def choice? {α : Type} (choices : Assoc α) (depth : Nat) : RawJson → Option α
  | .string pieces => (StringPiece.text? pieces).bind choices.get?
  | .object [(key, .null)] =>
    if depth = 0 then none else (StringPiece.text? key).bind choices.get?
  | _ => none

/-- The elements of a list, where at most `depth` arrays and objects may be
nested, one less in the elements. -/
def list? {α : Type} (decode : Nat → RawJson → Option α) : Nat → RawJson → Option (List α)
  | depth + 1, .array items => items.mapM (decode depth)
  | _, _ => none

end RawJson

end DocGate
