import FieldSearch.Entries
import FieldSearch.Text.Blank

/-!
# Constraints

The text `field: value, field: value` as an ordered set of constraints. Segments stand between
commas and split at their first colon; blanks around names and values do not count. A segment
without a colon or without a name says nothing. A field named again keeps its place and takes the
later value.
-/

namespace FieldSearch

abbrev Constraints := Entries Text

namespace Constraints

def ofSegment? (segment : Text) : Option (Text × Text) :=
  (segment.cut ':').bind fun (name, value) =>
    if name.trim.isEmpty then none else some (name.trim, value.trim)

def ofText (raw : Text) : Constraints := Entries.ofList ((raw.splitOn ',').filterMap ofSegment?)

/-- Whether a text is a query at all: it has a colon somewhere. -/
def isQuery (raw : Text) : Bool := ':' ∈ raw

end Constraints

end FieldSearch
