import DocGate.Bson.OfJson
import DocGate.Grammar.Check
import DocGate.Json.Reader

/-!
# Fragments of a request

A fragment is the text of a JSON object that a caller sends: a raw projection
or a query filter.  It is read as plain JSON, checked token by token, and only
then turned into a document for the store, so no name in it can mean anything
before it has been checked.
-/

namespace DocGate

/-- The members of the JSON object that a fragment is. -/
def FragmentKind.read (kind : FragmentKind) (text : String) :
    Except RequestFault (Assoc Json) :=
  match (RawJson.read? text).bind Json.ofRaw? with
  | some (.object members) => .ok members
  | some _ => .error (.notObject kind)
  | none => .error (.notJson kind)

/-- The document of a fragment whose tokens are all allowed. -/
def FragmentKind.toDocument (kind : FragmentKind) (readable : String → Bool) (text : String) :
    Except RequestFault Document :=
  match kind.read text with
  | .error fault => .error fault
  | .ok members =>
    match kind.checkMembers readable members with
    | .error fault => .error fault
    | .ok () => .ok (Bson.ofMembers members)

end DocGate
