import DocGate.Bson.Basic
import DocGate.Numeric.Shortest
import DocGate.Schema.Basic
import DocGate.Text.Blank

/-!
# Casts of single values

Two casts take a stored value towards the form that its field declares.
`Primitive.coerce` turns a primitive value into another: a text that spells a number or
a truth value, a number or truth value where a text is expected, a date into
its text.  `CastKind.apply` turns an identifier into its digits and a point
into its coordinates.

Neither can fail.  A value that does not fit stays as it is.
-/

namespace DocGate

/-- The primitive types that values are coerced to. -/
inductive Primitive
  | string
  | dateTime
  | number
  | boolean
  deriving DecidableEq, Repr

namespace Primitive

/-- The number that a text spells between blanks: an integer in the narrowest
type that holds it, else the nearest double if that is finite. -/
def numberOfText? (text : String) : Option Bson :=
  let cs := Text.trimChars text.toList
  match (Text.integerOfChars? cs).bind Bson.ofInt? with
  | some value => some value
  | none =>
    match Text.decimalOfChars? cs with
    | some decimal => if decimal.toDouble.isFinite then some (.double decimal.toDouble) else none
    | none => none

/-- The truth value that a text spells. -/
def boolOfText? (text : String) : Option Bool :=
  if text = "true" then some true
  else if text = "false" then some false
  else none

/-- The truth value that an integer stands for. -/
def boolOfInt? (n : Int) : Option Bool :=
  if n = 0 then some false
  else if n = 1 then some true
  else none

/-- The value coerced to a primitive type, or unchanged where that is not
possible. -/
def coerce : Primitive → Bson → Bson
  | .number, .string text => (numberOfText? text).getD (.string text)
  | .number, .bool value => .int32 (if value then 1 else 0)
  | .boolean, .string text =>
    match boolOfText? text with
    | some value => .bool value
    | none => .string text
  | .boolean, .int32 n =>
    match boolOfInt? n.toInt with
    | some value => .bool value
    | none => .int32 n
  | .boolean, .int64 n =>
    match boolOfInt? n.toInt with
    | some value => .bool value
    | none => .int64 n
  | .string, .int32 n => .string (String.ofList (Text.integerChars n.toInt))
  | .string, .int64 n => .string (String.ofList (Text.integerChars n.toInt))
  | .string, .double d => if d.isFinite then .string d.text else .double d
  | .string, .bool value => .string (if value then "true" else "false")
  | .dateTime, .dateTime date => .string date.text
  | _, value => value

end Primitive

namespace CastKind

/-- The coordinates of a point as it is stored: a document that names its type
`Point` and lists its coordinates. -/
def pointCoordinates? (entries : Document) : Option (List Bson) :=
  match entries.get? "type", entries.get? "coordinates" with
  | some (.string "Point"), some (.array coordinates) => some coordinates
  | _, _ => none

/-- An identifier as its digits, a point as its coordinates, any other value
unchanged. -/
def apply : CastKind → Bson → Bson
  | .objectId, .objectId id => .string id.hex
  | .geoPoint, .document entries =>
    match pointCoordinates? entries with
    | some coordinates => .array coordinates
    | none => .document entries
  | _, value => value

end CastKind

end DocGate
