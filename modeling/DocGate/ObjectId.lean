import DocGate.Text.Hex

/-!
# Document identifiers

An identifier is twelve bytes.  Its text is 24 lower-case hexadecimal digits,
and identifiers are ordered by their bytes, which is the order of the number
the bytes spell.  `ofHex?_hex` says that the text determines the identifier.
-/

namespace DocGate

/-- A twelve-byte document identifier. -/
structure ObjectId where
  value : BitVec 96
  deriving DecidableEq, Repr

namespace ObjectId

/-- The 24 hexadecimal digits of an identifier. -/
def hexChars (id : ObjectId) : List Char :=
  Text.hexChars 24 id.value.toNat

/-- The text of an identifier. -/
def hex (id : ObjectId) : String :=
  String.ofList id.hexChars

/-- The identifier spelled by 24 hexadecimal digits. -/
def ofHex? (text : String) : Option ObjectId :=
  if text.toList.length = 24 then
    (Text.natOfHex? text.toList).map fun value => ⟨BitVec.ofNat 96 value⟩
  else none

/-- Identifiers in the order of their bytes. -/
def order (a b : ObjectId) : Ordering :=
  compare a.value.toNat b.value.toNat

theorem order_eq_eq_iff {a b : ObjectId} : a.order b = .eq ↔ a = b := by
  rw [order, Std.LawfulEqCmp.compare_eq_iff_eq, BitVec.toNat_inj]
  exact ⟨fun h => congrArg ObjectId.mk h, fun h => congrArg ObjectId.value h⟩

theorem ofHex?_hex (id : ObjectId) : ofHex? id.hex = some id := by
  have hlt : id.value.toNat < 16 ^ 24 := id.value.isLt
  simp only [ofHex?, hex, hexChars, String.toList_ofList, Text.length_hexChars, if_true,
    Text.natOfHex?, Text.natOfHexFrom?_hexChars, Option.map_some, Nat.mod_eq_of_lt hlt]
  simp

end ObjectId

end DocGate
