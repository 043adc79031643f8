import DocGate.Bson.Basic
import DocGate.Numeric.Shortest
import DocGate.Text.Base64

/-!
# The text of a stored value

The form in which a value is shown in a message.  It is for reading only:
strings stand in quotes without escapes, and several types have a name around
their content.
-/

namespace DocGate

namespace DateTime

/-- Whether a date lies in the years -9999 to 9999, which are shown as dates. -/
def hasShownDay (t : DateTime) : Bool :=
  -377705116800000 ≤ t.millis.toInt && t.millis.toInt ≤ 253402300799999

/-- A date as it is shown in a message: day, time without superfluous zeros,
and offset.  Dates in years of more than four digits are shown as a count of
milliseconds. -/
def shownText (t : DateTime) : String :=
  let millis := t.millis.toInt
  if t.hasShownDay then
    let day := CivilDay.ofDayNumber (millis / 86400000)
    let time := (millis % 86400000).toNat
    let fraction := time % 1000
    let decimals :=
      if fraction % 100 = 0 then Text.digits (fraction / 100)
      else if fraction % 10 = 0 then Text.paddedDigits 2 (fraction / 10)
      else Text.paddedDigits 3 fraction
    String.ofList (Text.yearChars day.year ++ '-' :: Text.paddedDigits 2 day.month ++
      '-' :: Text.paddedDigits 2 day.day ++ ' ' :: Text.digits (time / 3600000) ++
      ':' :: Text.paddedDigits 2 (time / 60000 % 60) ++
      ':' :: Text.paddedDigits 2 (time / 1000 % 60) ++ '.' :: decimals) ++ " +00:00:00"
  else String.ofList (Text.integerChars millis)

example : charsOfMillis (-377705116800000) = "-9999-01-01T00:00:00.000Z".toList := by decide +kernel
example : charsOfMillis 253402300799999 = "9999-12-31T23:59:59.999Z".toList := by decide +kernel

end DateTime

namespace Bson

mutual

/-- The text of a value in a message. -/
def text : Bson → String
  | .null => "null"
  | .bool value => if value then "true" else "false"
  | .string value => "\"" ++ value ++ "\""
  | .int32 value => String.ofList (Text.integerChars value.toInt)
  | .int64 value => String.ofList (Text.integerChars value.toInt)
  | .double value => value.text
  | .objectId id => "ObjectId(\"" ++ id.hex ++ "\")"
  | .dateTime date => "DateTime(\"" ++ date.shownText ++ "\")"
  | .timestamp time increment =>
    "Timestamp(" ++ String.ofList (Text.digits time.toNat) ++ ", " ++
      String.ofList (Text.digits increment.toNat) ++ ")"
  | .regex pattern options => "/" ++ pattern ++ "/" ++ options
  | .binary bytes => "Binary(0x0, " ++ String.ofList (Text.base64Chars bytes) ++ ")"
  | .code source => source
  | .symbol value => "Symbol(\"" ++ value ++ "\")"
  | .minKey => "MinKey"
  | .maxKey => "MaxKey"
  | .undefined => "undefined"
  | .array items => "[" ++ itemsText items ++ "]"
  | .document [] => "\x7b\x7d"
  | .document (entry :: rest) => "\x7b " ++ entriesText (entry :: rest) ++ " \x7d"

/-- The texts of some values with commas between them. -/
def itemsText : List Bson → String
  | [] => ""
  | [item] => item.text
  | item :: second :: rest => item.text ++ ", " ++ itemsText (second :: rest)

/-- The texts of some entries with commas between them. -/
def entriesText : List (String × Bson) → String
  | [] => ""
  | [(key, value)] => "\"" ++ key ++ "\": " ++ value.text
  | (key, value) :: second :: rest =>
    "\"" ++ key ++ "\": " ++ value.text ++ ", " ++ entriesText (second :: rest)

end

end Bson

end DocGate
