import FieldSearch.Error
import FieldSearch.Query.Constraints
import FieldSearch.Schema.Basic

/-!
# Resolution

A document type answers a search when each constrained field is available on it. A field is matched
exactly where it can be, else by full text; a name that already is the full-text name of a field is
used as it stands.
-/

namespace FieldSearch

/-- A document type bound to the backend fields and values of one search. -/
structure Resolution where
  type : DocumentType
  conditions : Entries Text
deriving DecidableEq

namespace DocumentType

/-- The backend field that a field name stands for. -/
def fieldFor? (t : DocumentType) (name : Text) : Option Text :=
  if isFulltextName name && t.hasFulltext (baseName name) then some name
  else if t.hasExact name then some name
  else if t.hasFulltext name then some (fulltextName name)
  else none

def bind? (t : DocumentType) : Constraints → Entries Text → Option (Entries Text)
  | [], bound => some bound
  | (name, value) :: rest, bound => do bind? t rest (bound.put (← t.fieldFor? name) value)

def resolve? (t : DocumentType) (constraints : Constraints) : Option Resolution :=
  (t.bind? constraints []).map (⟨t, ·⟩)

end DocumentType

/-- The types that satisfy every constraint, in schema order. -/
def resolveTypes (types : List DocumentType) (constraints : Constraints) : List Resolution :=
  types.filterMap (·.resolve? constraints)

def requireEligible (types : List DocumentType) (constraints : Constraints) :
    Except SearchError (List Resolution) :=
  match resolveTypes types constraints with
  | [] => .error (.of (.noEligibleType constraints.keys))
  | resolved => .ok resolved

end FieldSearch
