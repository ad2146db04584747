import FieldSearch.Json.Access
import FieldSearch.Schema.Basic

/-!
# Schema responses

The backend answers two introspection documents: the names of all types, and the input fields of
the filter types among them. Reading either one ends in a value or in the fault of the first place
whose shape is not the expected one.
-/

namespace FieldSearch

namespace Schema

open Json (index elements lookup)

def filterName? : Json → Option Text
  | .text name => if filterPrefix.isPrefixOf name then some name else none
  | _ => none

def listedNames (response : Json) : Except ShapeFault (List Json) := do
  let types ← index "types" (← index "__schema" response)
  (← elements types).mapM (index "name")

def unavailable (message : Text) : SearchError := .of (.schema message)

/-- The names of the filter types of a schema. -/
def filterTypeNames (response : Json) : Except SearchError (List Text) :=
  match listedNames response with
  | .ok names => .ok (names.filterMap filterName?)
  | .error fault => .error (unavailable ("Unexpected __schema response shape: " ++ fault.shown))

/-- The name of an input field whose type is the text type. -/
def textFieldName? (field : Json) : Except ShapeFault (Option Json) := do
  let type ← lookup "type" field
  let typeName ← if type.isTruthy then lookup "name" type else .ok .null
  match typeName with
  | .text ['S', 't', 'r', 'i', 'n', 'g'] =>
    let name ← lookup "name" field
    return if name.isTruthy then some name else none
  | _ => return none

/-- A field name has to be a text before its ending can be looked at. -/
def fieldName : Json → Except ShapeFault Text
  | .text name => .ok name
  | value => .error (.noMember value.kindName "endswith")

def documentType (inputType : Text) (inputFields : Json) : Except ShapeFault DocumentType := do
  let declared ← (← elements inputFields).mapM textFieldName?
  let names ← (declared.filterMap id).mapM fieldName
  return .ofDeclared inputType names

def inputFields (response : Json) (name : Text) : Except ShapeFault Json := do
  index "inputFields" (← index name response)

def listedType (response : Json) (name : Text) : Except SearchError DocumentType :=
  match inputFields response name with
  | .error _ => .error (unavailable ("Missing input fields for " ++ name))
  | .ok (.array fields) =>
    match documentType name (.array fields) with
    | .ok type => .ok type
    | .error fault =>
      .error (unavailable ("Unexpected input field entry for " ++ name ++ ": " ++ fault.shown))
  | .ok _ => .error (unavailable ("Unexpected inputFields shape for " ++ name))

/-- The document types of the listed filter types, all of them or none. -/
def documentTypes (response : Json) (names : List Text) : Except SearchError (List DocumentType) :=
  names.mapM (listedType response)

end Schema

end FieldSearch
