import FieldSearch.Text.Basic

/-!
# Saved queries

A search text kept under a name for a later replay.
-/

namespace FieldSearch

structure SavedQuery where
  name : Text
  value : Text
deriving DecidableEq

namespace SavedQuery

def defaultName : Text := "New Search"

end SavedQuery

end FieldSearch
