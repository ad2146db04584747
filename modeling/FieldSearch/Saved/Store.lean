import FieldSearch.Query.Constraints
import FieldSearch.Saved.Format

/-!
# The store of saved searches

A store is one file, which may not be there yet. Saved searches stand in it most recently saved
first. Every change reads the file, writes the whole list back and answers it; a change that fails
leaves the file as it was.
-/

namespace FieldSearch

/-- What the file holds, if there is one. -/
structure Store where
  file : Option Text.Bytes := none
deriving DecidableEq

namespace Store

def fileName : Text := "saved_queries.yaml"

abbrev Change := Except Failure (List SavedQuery) × Store

def list (f : Format) (s : Store) : Except Failure (List SavedQuery) :=
  match s.file with
  | some bytes => f.read bytes
  | none => .ok []

/-- What is said of a place without a search, if its number can be written. -/
def absent (index : Int) : Failure :=
  match Number.written index with
  | .ok number => .ofCause (.notFound "Saved query" (some number))
  | .error crash => .crash crash

def place (queries : List SavedQuery) (index : Int) : Except Failure (Fin queries.length) :=
  if h : 0 ≤ index ∧ index < queries.length then .ok ⟨index.toNat, by omega⟩
  else .error (absent index)

def get (f : Format) (s : Store) (index : Int) : Except Failure SavedQuery := do
  let queries ← s.list f
  return queries.get (← place queries index)

/-- Writes a list back, unless there is none. -/
def commit (f : Format) (s : Store) : Except Failure (List SavedQuery) → Change
  | .ok queries => (.ok queries, { file := some (f.write queries) })
  | .error e => (.error e, s)

/-- Saves a search in front of the others, under the default name if it is given none. -/
def save (f : Format) (s : Store) (value name : Text) : Change :=
  s.commit f <|
    if Constraints.isQuery value then
      (s.list f).map fun queries =>
        { name := if name.isEmpty then SavedQuery.defaultName else name, value } :: queries
    else .error (.ofCause (.notAQuery (some value)))

def rename (f : Format) (s : Store) (index : Int) (name : Text) : Change :=
  s.commit f do
    let queries ← s.list f
    let n ← place queries index
    return queries.modify n ({ · with name })

def forget (f : Format) (s : Store) (index : Int) : Change :=
  s.commit f do
    let queries ← s.list f
    let n ← place queries index
    return queries.eraseIdx n

end Store

end FieldSearch
