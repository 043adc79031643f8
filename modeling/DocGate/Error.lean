import DocGate.Bson.Text
import DocGate.Definition.Basic

/-!
# Failures

Each way to fail is a cause with its parameters; the wording stands in one
place, the `message` functions of this module.

* `DefinitionFault`: a collection definition is not usable.  It stops the
  start of the service.
* `RequestFault`: a caller asks for something that is ambiguous or that it may
  not have.  It is reported to the caller.
* `StoreFault`: the store cannot do what it is asked.

`Failure` collects them for the functions in which several can occur.
-/

namespace DocGate

/-- Why a collection definition is refused. -/
inductive DefinitionFault
  /-- The text is not the JSON of a definition.  The diagnostic of the JSON reader,
  its words and the place in the text, is left out of the model. -/
  | malformed
  /-- A field in the list at `parent` has an empty name. -/
  | unnamedField (parent : String)
  /-- A name occurs twice in the field list at `parent`. -/
  | repeatedField (name parent : String)
  /-- A `RawObject` field lists no fields. -/
  | missingProperties (path : String)
  /-- An `Array` field does not describe its elements. -/
  | missingItems (path : String)
  /-- A fault in the fields of a collection. -/
  | inCollection (name : String) (fault : DefinitionFault)
  /-- A collection declares a bookkeeping field with another kind. -/
  | reservedField (collection field : String) (declared reserved : FieldKind)
  /-- Two collections have the same name. -/
  | repeatedCollection (name : String)
  /-- Two collections are served under the same path. -/
  | sharedEndpoint (first second endpoint : String)
  /-- A cast target leads to no node of the schema it comes with. -/
  | unmatchedCastTarget (path : String)

namespace DefinitionFault

/-- What is wrong with a definition.  `<json>` takes the place of the diagnostic of
the JSON reader, which is left out. -/
def reason : DefinitionFault → String
  | malformed => "<json>"
  | unnamedField parent => s!"field without a name under \x60{parent}\x60"
  | repeatedField name parent =>
    s!"field \x60{name}\x60 is declared more than once under \x60{parent}\x60"
  | missingProperties path => s!"RawObject field \x60{path}\x60 must declare schema.properties"
  | missingItems path => s!"Array field \x60{path}\x60 must declare items"
  | inCollection name fault => s!"collection \x60{name}\x60: {reason fault}"
  | reservedField collection field declared reserved =>
    s!"collection \x60{collection}\x60 declares \x60{field}\x60 as {declared.name}, " ++
      s!"but it is a reserved {reserved.name} field"
  | repeatedCollection name => s!"collection \x60{name}\x60 is defined more than once"
  | sharedEndpoint first second endpoint =>
    s!"collections \x60{first}\x60 and \x60{second}\x60 share the endpoint \x60{endpoint}\x60"
  | unmatchedCastTarget path => s!"cast target \x60{path}\x60 does not match the schema"

end DefinitionFault

/-- The two kinds of JSON text in a request. -/
inductive FragmentKind
  | projection
  | filter
  deriving DecidableEq, Repr

/-- The name of a kind of fragment in a message. -/
def FragmentKind.name : FragmentKind → String
  | projection => "raw projection"
  | filter => "query filter"

/-- Why a request is refused. -/
inductive RequestFault
  /-- A variable of the store is mentioned. -/
  | systemVariable (name : String)
  /-- Another variable is mentioned. -/
  | userVariable (name : String)
  /-- A token is neither an allowed operator nor a readable field. -/
  | token (text : String)
  /-- A fragment is not JSON.  The diagnostic of the JSON reader is left out. -/
  | notJson (fragment : FragmentKind)
  /-- A fragment is JSON but no object. -/
  | notObject (fragment : FragmentKind)
  /-- A field list and a raw projection come together. -/
  | twoSelections
  /-- A raw projection excludes a column that the caller may read. -/
  | exclusion (column : String)
  /-- Under a column restriction nothing but parts of fields is selected. -/
  | onlySelectors
  /-- A state list names no state. -/
  | unknownState (text : String)
  deriving DecidableEq, Repr

namespace RequestFault

/-- What is wrong with a request.  The diagnostic that follows after a colon for a
fragment that is not JSON is left out. -/
def reason : RequestFault → String
  | systemVariable name => s!"system variable $${name} is not allowed"
  | userVariable name => s!"variable $${name} is not allowed"
  | token text => s!"operator {text} is not allowed"
  | notJson fragment => s!"{fragment.name} is not valid JSON"
  | notObject fragment => s!"{fragment.name} must be a JSON object"
  | twoSelections => "a field list and a raw projection cannot be used together"
  | exclusion column => s!"exclusive raw projection on \x60{column}\x60 overrides the readable columns"
  | onlySelectors =>
    "raw projection only selects within fields; include at least one readable column"
  | unknownState text => s!"unknown document state \x60{text}\x60"

end RequestFault

/-- Why the store fails. -/
inductive StoreFault
  /-- The operand of a logical operator is no list. -/
  | notArray (operator : String)
  /-- The operand of a logical operator holds something else than filters. -/
  | notFilters (operator : String)
  /-- The store does not know the operator. -/
  | unsupportedOperator (operator : String)
  /-- The operand of a membership test is no list. -/
  | membershipOperand
  /-- The store does not compute projections. -/
  | computedProjection (key : String)
  /-- A projection includes some paths and excludes others. -/
  | mixedProjection
  /-- A document with this identifier is stored already. -/
  | duplicateKey (id : Bson) (collection : String)

namespace StoreFault

/-- What the store reports. -/
def reason : StoreFault → String
  | notArray operator => s!"{operator} expects an array"
  | notFilters operator => s!"{operator} expects an array of filters"
  | unsupportedOperator operator =>
    s!"filter operator {operator} is not supported by this backend"
  | membershipOperand => "$in and $nin expect an array"
  | computedProjection key =>
    s!"projection expression on \x60{key}\x60 is not supported by this backend"
  | mixedProjection => "cannot mix inclusions and exclusions in a projection"
  | duplicateKey id collection => s!"duplicate key {id.text} in collection {collection}"

end StoreFault

/-- Why an operation fails. -/
inductive Failure
  | definition (fault : DefinitionFault)
  | request (fault : RequestFault)
  /-- No collection has this name. -/
  | collectionNotFound (name : String)
  /-- The text is not the JSON of a list of fields.  The diagnostic of the JSON
  reader is left out. -/
  | malformedFields
  | store (fault : StoreFault)

namespace Failure

/-- The text of a failure, with `<json>` for a diagnostic of the JSON reader. -/
def message : Failure → String
  | definition fault => s!"Invalid collection definition: {fault.reason}"
  | request fault => s!"Invalid request: {fault.reason}"
  | collectionNotFound name => s!"Collection not found: {name}"
  | malformedFields => "Serialization error: <json>"
  | store fault => s!"Backend error: {fault.reason}"

/-- Whether the failure is the caller's and is to be reported to it. -/
def isRequest : Failure → Bool
  | request _ => true
  | _ => false

end Failure

/-- Outcomes can be compared where faults and results can. -/
instance decidableEqOutcome {ε α : Type} [DecidableEq ε] [DecidableEq α] :
    DecidableEq (Except ε α)
  | .ok a, .ok b => decidable_of_iff (a = b) ⟨congrArg Except.ok, Except.ok.inj⟩
  | .error a, .error b => decidable_of_iff (a = b) ⟨congrArg Except.error, Except.error.inj⟩
  | .ok _, .error _ => isFalse nofun
  | .error _, .ok _ => isFalse nofun

end DocGate
