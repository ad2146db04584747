import FieldSearch.Error

/-!
# Looking into Json values

Three ways to look into a value, each with the faults of values that do not have the shape: a
member that has to be there, the parts of a value, and a member that may be missing.
-/

namespace FieldSearch

namespace Json

def index (key : Text) : Json → Except ShapeFault Json
  | object members =>
    match Entries.get? key members with
    | some value => .ok value
    | none => .error (.missingKey key)
  | text _ => .error .textIndex
  | array _ => .error .listIndex
  | value => .error (.notIndexable value.kindName)

/-- The parts of a value that has some: items, characters or keys. -/
def elements : Json → Except ShapeFault (List Json)
  | array items => .ok items
  | text t => .ok (t.map fun c => .text [c])
  | object members => .ok (members.map fun (key, _) => .text key)
  | value => .error (.notIterable value.kindName)

/-- A member that may be missing, of a value that has to be an object. -/
def lookup (key : Text) : Json → Except ShapeFault Json
  | object members => .ok ((Entries.get? key members).getD .null)
  | value => .error (.noMember value.kindName "get")

end Json

end FieldSearch
