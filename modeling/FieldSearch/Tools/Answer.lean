import FieldSearch.Json.Write
import FieldSearch.Query.Suggestion
import FieldSearch.Saved.Query
import FieldSearch.Session.Basic

/-!
# Answers of the tools

What the tools say: lists of suggestions, types and saved searches as Json, a search document in a
fence, and errors either as Markdown or as Json.
-/

namespace FieldSearch.Tools

def object (members : List (Text × Json)) : Json := .object members

/-! ## Searching -/

def suggestion (raw name : Text) : Json :=
  object [("field", .text name), ("autofill", .text (autofill raw name))]

/-- The suggested fields, each with the input that it makes. -/
def suggestionsText (raw : Text) (names : List Text) : Text :=
  Json.write .unicode (.array (names.map (suggestion raw)))

def fieldJson (f : FieldSupport) : Json :=
  object [("name", .text f.name), ("exact", .bool f.exact), ("fulltext", .bool f.fulltext)]

def typeJson (t : DocumentType) : Json :=
  object [("type", .text t.name), ("input_type", .text t.inputType),
    ("summary_field", Cause.textOrNull t.summaryField),
    ("fields", .array (t.fields.map fun (_, f) => fieldJson f))]

def typesText (types : List DocumentType) : Text :=
  Json.writeLines .unicode 0 (.array (types.map typeJson))

def documentText : Option GraphQL.SearchDocument → Except Crash Text
  | some d => do return "```graphql\n" ++ (← d.render) ++ "\n```"
  | none =>
    .ok
      "No request would be made: the input is not a query or no document type has all its fields."

/-! ## Saved searches -/

def savedJson (lastQueried : Option Text) (entry : SavedQuery × Nat) : Json :=
  object [("index", .int entry.2), ("name", .text entry.1.name), ("value", .text entry.1.value),
    ("selected", .bool (lastQueried = some entry.1.value))]

/-- All saved searches; those whose value was searched for last are selected. -/
def savedText (lastQueried : Option Text) (queries : List SavedQuery) : Text :=
  Json.writeLines .unicode 0
    (object [("success", .bool true), ("count", .int queries.length),
      ("saved_searches", .array (queries.zipIdx.map (savedJson lastQueried)))])

def replayText (q : SavedQuery) (outcome : Text) : Text :=
  "**" ++ q.name ++ "** (`" ++ q.value ++ "`)\n\n" ++ outcome

/-! ## Errors -/

/-- An error is an answer like any other; a crash is not. -/
def orMarkdown : Except Failure Text → Except Failure Text
  | .error (.error e) => .ok e.markdown
  | result => result

def orJson : Except Failure Text → Except Failure Text
  | .error (.error e) =>
    .ok (Json.write .unicode (object (("success", .bool false) :: e.describe)))
  | result => result

end FieldSearch.Tools
