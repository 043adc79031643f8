import DocGate.Grammar.Fragment

/-!
# Queries

A query is a filter document that a caller sends as a fragment.  In its
expressions it may refer to the fields of the collection, whatever columns the
caller may read.
-/

namespace DocGate

/-- The filter document of a query on a collection with the given fields. -/
def Query.read (fieldNames : List String) (text : String) : Except RequestFault Document :=
  FragmentKind.filter.toDocument fieldNames.contains text

end DocGate
