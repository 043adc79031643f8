import DocGate.Error
import DocGate.Grammar.Operators
import DocGate.Grammar.Token
import DocGate.Json.Basic

/-!
# Checking fragments

A fragment goes to the store as it is, so every dollar token in its keys and
its strings is checked first, at every depth.  An operator must be allowed in
fragments of this kind, a field must be readable, and variables are always
refused: those of the store show whole documents or its own state, and others
cannot be traced to readable fields.

The first refused token in the order of the text is reported; a key comes
before its value.
-/

namespace DocGate

namespace FragmentKind

/-- Whether `operator`, with its dollar sign, is allowed. -/
def allows (kind : FragmentKind) (operator : String) : Bool :=
  match kind with
  | projection => Operators.ofProjections.contains operator
  | filter => Operators.ofFilters.contains operator || Operators.ofProjections.contains operator

/-- Checks one token. -/
def checkToken (kind : FragmentKind) (readable : String → Bool) :
    Token → Except RequestFault Unit
  | .variable name =>
    if Operators.systemVariables.contains name then .error (.systemVariable name)
    else .error (.userVariable name)
  | .dollar name =>
    if kind.allows ("$" ++ name) || readable name then .ok ()
    else .error (.token ("$" ++ name))

/-- Checks a list of tokens from first to last. -/
def checkTokens (kind : FragmentKind) (readable : String → Bool) :
    List Token → Except RequestFault Unit
  | [] => .ok ()
  | token :: rest =>
    match kind.checkToken readable token with
    | .ok () => checkTokens kind readable rest
    | .error fault => .error fault

/-- Checks every token of a text. -/
def checkText (kind : FragmentKind) (readable : String → Bool) (text : String) :
    Except RequestFault Unit :=
  kind.checkTokens readable (Token.ofText text)

mutual

/-- Checks every key and every string of a value. -/
def checkValue (kind : FragmentKind) (readable : String → Bool) :
    Json → Except RequestFault Unit
  | .string text => kind.checkText readable text
  | .array items => checkItems kind readable items
  | .object members => checkMembers kind readable members
  | .null => .ok ()
  | .bool _ => .ok ()
  | .integer _ => .ok ()
  | .double _ => .ok ()

/-- Checks the items of an array. -/
def checkItems (kind : FragmentKind) (readable : String → Bool) :
    List Json → Except RequestFault Unit
  | [] => .ok ()
  | item :: rest =>
    match checkValue kind readable item with
    | .ok () => checkItems kind readable rest
    | .error fault => .error fault

/-- Checks the members of an object, each key before its value. -/
def checkMembers (kind : FragmentKind) (readable : String → Bool) :
    List (String × Json) → Except RequestFault Unit
  | [] => .ok ()
  | (key, value) :: rest =>
    match kind.checkText readable key with
    | .error fault => .error fault
    | .ok () =>
      match checkValue kind readable value with
      | .error fault => .error fault
      | .ok () => checkMembers kind readable rest

end

end FragmentKind

end DocGate
