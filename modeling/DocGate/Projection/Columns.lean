import DocGate.Repetition
import DocGate.Text.Split

/-!
# Readable columns

The fields that a caller may read, as the access control of the service hands
them over: a comma-separated list.  A list without names restricts nothing.
-/

namespace DocGate

/-- The columns that a caller may read; no columns means all of them. -/
structure Columns where
  names : List String
  deriving DecidableEq, Repr

namespace Columns

/-- The columns in a comma-separated list, each once. -/
def ofText (text : Option String) : Columns :=
  ⟨withoutRepeats [] (Text.listItems (text.getD ""))⟩

/-- Whether all fields may be read. -/
def isUnrestricted (columns : Columns) : Bool :=
  columns.names.isEmpty

/-- Whether a field is listed. -/
def contains (columns : Columns) (name : String) : Bool :=
  columns.names.contains name

/-- Whether a field may be read. -/
def allows (columns : Columns) (name : String) : Bool :=
  columns.isUnrestricted || columns.contains name

end Columns

end DocGate
