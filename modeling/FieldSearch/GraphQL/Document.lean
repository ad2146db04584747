import FieldSearch.GraphQL.Value
import FieldSearch.Query.Resolution

/-!
# Documents

The three documents sent to a backend: one asks for the names of all types, one for the input
fields of the filter types, and one searches every eligible type by a listing of its own.
-/

namespace FieldSearch.GraphQL

def typesDocument : Text :=
  Text.lines
    ["query types \x7b",
     "  __schema \x7b",
     "    types \x7b",
     "      name",
     "    \x7d",
     "  \x7d",
     "\x7d"]

def indent (depth : Nat) (line : Text) : Text := List.replicate (2 * depth) ' ' ++ line

/-- Lines between an opening line and a closing brace, one level deeper. -/
def block (opening : Text) (body : List Text) : List Text :=
  (opening ++ " \x7b") :: (body.map (indent 1) ++ [['\x7d']])

/-- One operation whose parts are given as whole texts. -/
def operation (name : Text) (parts : List Text) : Text :=
  "query " ++ name ++ " \x7b\n" ++ Text.lines parts ++ "\n\x7d"

def atDepth (depth : Nat) (lines : List Text) : Text := Text.lines (lines.map (indent depth))

/-- The lookup of one input type, under its own name. -/
def inputLookup (name : Text) : List Text :=
  block (name ++ ": __type(name: " ++ stringLiteral name ++ ")")
    (block "inputFields" ("name" :: block "type" ["name"]))

def inputsDocument (names : List Text) : Text :=
  operation "inputs" (names.map fun name => atDepth 1 (inputLookup name))

def defaultPageSize : Int := 50

def summaryLine (summaryField : Option Text) : List Text :=
  match summaryField with
  | none | some [] => []
  | some field => ["summary: " ++ field]

def metaLines : List Text := block "_meta" ["id", "type", "lastPublicationDate"]

/-- A listing of one type, with its arguments already written. -/
def listing (rootField first conditions : Text) (summaryField : Option Text) : List Text :=
  block (rootField ++ "(first: " ++ first ++ ", where: " ++ conditions ++ ")")
    (block "edges" (block "node" (summaryLine summaryField ++ metaLines)))

/-- A bounded search of one type. -/
structure Selection where
  rootField : Text
  conditions : Entries Text
  summaryField : Option Text := none
  pageSize : Value := .int defaultPageSize

namespace Selection

def ofResolution (pageSize : Value) (r : Resolution) : Selection :=
  ⟨r.type.name, r.conditions, r.type.summaryField, pageSize⟩

def conditionsLiteral (s : Selection) : Text :=
  objectLiteral (s.conditions.map fun (field, value) => (field, stringLiteral value))

/-- The lines of a selection whose page size has a literal. -/
def lines (s : Selection) : Except Crash (List Text) := do
  return listing s.rootField (← s.pageSize.literal) s.conditionsLiteral s.summaryField

end Selection

/-- The search document: one selection per eligible type. -/
structure SearchDocument where
  selections : List Selection

namespace SearchDocument

def rootFields (d : SearchDocument) : List Text := d.selections.map Selection.rootField

def render (d : SearchDocument) : Except Crash Text := do
  return operation "search" ((← d.selections.mapM Selection.lines).map (atDepth 1))

/-- A page holds at least one document. What is no number cannot be compared with one. -/
def checkPageSize : Value → Except Crash Unit
  | .int n => if n < 1 then .error (.ofPageSize n) else .ok ()
  | .real x => if x < 1 then .error (.pageSize (Number.ofFloat x)) else .ok ()
  | .bool true => .ok ()
  | .bool false => .error (.pageSize "False")
  | _ => .error .wrongKind

/-- Searches the resolved types in their order. -/
def ofResolutions (pageSize : Value) (resolved : List Resolution) :
    Except Crash SearchDocument := do
  checkPageSize pageSize
  return ⟨resolved.map (Selection.ofResolution pageSize)⟩

end SearchDocument

end FieldSearch.GraphQL
