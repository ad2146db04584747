import FieldSearch.Saved.Query
import FieldSearch.Text.Utf8
import FieldSearch.Yaml.Construct
import FieldSearch.Yaml.Write

/-!
# Files of saved searches

A file of saved searches is a Yaml map in UTF-8 whose member `savedQueries` lists them, each with a
name and a value. A reader bears with what others wrote: entries that are no maps are passed over, a
missing value is empty, a name that counts as nothing is the default name, and values of other kinds
are taken as text.
-/

namespace FieldSearch

/-- How a list of saved searches is kept in a file. -/
structure Format where
  write : List SavedQuery → Text.Bytes
  read : Text.Bytes → Except Failure (List SavedQuery)

namespace SavedQuery

open Yaml (Document Value)

def storageKey : Text := "savedQueries"

/-! ## Writing -/

/-- An entry of the list; further lines of a scalar are indented by four blanks. -/
def entryLines (q : SavedQuery) : List Text :=
  ["- name: " ++ Yaml.Write.scalar 4 q.name, "  value: " ++ Yaml.Write.scalar 4 q.value]

def writeYaml (queries : List SavedQuery) : Text :=
  if queries.isEmpty then storageKey ++ ": []\n"
  else Text.lines ((storageKey ++ [':']) :: queries.flatMap entryLines) ++ ['\n']

/-! ## Reading -/

def unreadable : Failure :=
  .ofCause (.unreadable "Invalid saved query file" (some "saved_queries"))

section

variable (d : Document)

def textOf (v : d.Inner) : Except Failure Text :=
  if d.isWritable v then .ok (d.asText v) else .error (.crash .tooManyDigits)

def ofMembers (members : List (d.Inner × d.Inner)) : Except Failure SavedQuery := do
  let value ← match Value.member? "value" members with
    | some v => textOf d v
    | none => .ok []
  let name ← match Value.member? "name" members with
    | some v => if (d.face v).isTruthy then textOf d v else .ok defaultName
    | none => .ok defaultName
  return { name, value }

def ofItems : List d.Inner → Except Failure (List SavedQuery)
  | [] => .ok []
  | item :: rest =>
    match d.face item with
    | .map members => do return (← ofMembers d members) :: (← ofItems rest)
    | _ => ofItems rest

/-- Only what has parts can be looked through for entries. -/
def ofEntries (stored : d.Inner) : Except Failure (List SavedQuery) :=
  match d.face stored with
  | .list items => ofItems d items
  | .text _ | .bytes _ | .set _ | .map _ | .pair .. | .shared _ => .ok []
  | .null => .error (.ofShape (.notIterable "NoneType"))
  | .bool _ => .error (.ofShape (.notIterable "bool"))
  | .int _ => .error (.ofShape (.notIterable "int"))
  | .real _ => .error (.ofShape (.notIterable "float"))
  | .date _ | .moment _ => .error (.ofShape (.notIterable "datetime"))

def ofDocument : Except Failure (List SavedQuery) :=
  match d.face d.root with
  | .map members =>
    match Value.member? storageKey members with
    | some entries => ofEntries d entries
    | none => .ok []
  | _ => .ok []

end

/-- The saved searches of a document, given what its text was read as. -/
def ofLoaded : Except Yaml.Fault Document → Except Failure (List SavedQuery)
  | .ok d => ofDocument d
  | .error .malformed => .error unreadable
  | .error (.crash c) => .error (.crash c)

end SavedQuery

/-- The format of lists that are written as texts which `load` reads as documents. A file is read
piece by piece, so `early` may tell of a fault that comes before the bytes that are not UTF-8. -/
def Format.loading (write : List SavedQuery → Text)
    (load : Text → Except Yaml.Fault Yaml.Document)
    (early : Text.Bytes → Option Yaml.Fault := fun _ => none) : Format where
  write queries := Text.encodeUtf8 (write queries)
  read bytes :=
    match Text.decodeUtf8? bytes with
    | some text => SavedQuery.ofLoaded (load text)
    | none => SavedQuery.ofLoaded (.error ((early bytes).getD (.crash .undecodable)))

def Format.yaml : Format := .loading SavedQuery.writeYaml Yaml.Document.ofText?

end FieldSearch
