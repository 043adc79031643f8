import DocGate.Definition.Bookkeeping
import DocGate.Error
import DocGate.Repetition
import DocGate.Text.Split

/-!
# Restriction to document states

A read is restricted to documents in some states, which the caller lists by
their texts.  Without a list only published documents are read.  The
restriction is one more condition beside the caller's query, so no query can
undo it.
-/

namespace DocGate

/-- The document states that a read is restricted to. -/
structure StateFilter where
  states : List DocumentState
  deriving DecidableEq, Repr

namespace StateFilter

/-- The states with the given texts. -/
def statesOfTexts : List String → Except RequestFault (List DocumentState)
  | [] => .ok []
  | text :: rest =>
    match DocumentState.ofText? text with
    | none => .error (.unknownState text)
    | some state =>
      match statesOfTexts rest with
      | .error fault => .error fault
      | .ok states => .ok (state :: states)

/-- The states in a comma-separated list, each once; without a list, or with
nothing in it, published documents. -/
def ofText (text : Option String) : Except RequestFault StateFilter :=
  match statesOfTexts (Text.listItems (text.getD "")) with
  | .error fault => .error fault
  | .ok [] => .ok ⟨[.published]⟩
  | .ok (state :: rest) => .ok ⟨withoutRepeats [] (state :: rest)⟩

/-- The restriction as a filter document. -/
def toDocument (filter : StateFilter) : Document :=
  [(Bookkeeping.stateField,
    .document [("$in", .array (filter.states.map fun state => .string state.text))])]

/-- The filter document for a query, if there is one, and a restriction.  An
empty query adds nothing. -/
def combine (filter : StateFilter) (query : Option Document) : Document :=
  match query with
  | some (entry :: rest) =>
    [("$and", .array [.document (entry :: rest), .document filter.toDocument])]
  | _ => filter.toDocument

end StateFilter

end DocGate
