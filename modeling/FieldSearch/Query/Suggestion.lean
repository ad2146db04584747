import FieldSearch.Query.Constraints
import FieldSearch.Schema.Basic

/-!
# Suggestions

Field names for the segment that is being typed, the text after the last comma, and the text with
one of them filled in.
-/

namespace FieldSearch

def lastSegment (raw : Text) : Text := Text.trim ((raw.splitOn ',').getLast?.getD [])

/-- The base names of the fields of all types, each at its first place. -/
def fieldNames (types : List DocumentType) : List Text :=
  (types.flatMap fun t => t.fields.keys.map baseName).foldl
    (fun seen name => if name ∈ seen then seen else seen ++ [name]) []

/-- The field names that hold the segment being typed; nothing typed, nothing suggested. -/
def suggestFields (types : List DocumentType) (raw : Text) : List Text :=
  let typed := lastSegment raw
  if typed.isEmpty then [] else (fieldNames types).filter (Text.contains typed)

/-- Puts a field name and a colon in place of the segment being typed. -/
def autofill (raw name : Text) : Text :=
  Text.join [','] ((raw.splitOn ',').dropLast ++ [name ++ [':']])

end FieldSearch
