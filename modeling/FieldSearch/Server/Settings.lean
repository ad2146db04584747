import FieldSearch.GraphQL.Document
import FieldSearch.Number.Read
import FieldSearch.Text.Blank

/-!
# Settings

Where a server finds its repository and keeps its saved searches. The endpoint is the first argument
of the command line or else a variable of the environment; all other settings are variables. Blanks
around a variable do not count, and a blank one is not set.
-/

namespace FieldSearch

structure Settings where
  endpoint : Text
  repository : Option Text := none
  token : Option Text := none
  directory : Option Text := none
  pageSize : Json := .int GraphQL.defaultPageSize
  name : Text := "prismic-search"

inductive StartFault where
  | noEndpoint
  | invalid (e : SearchError)

namespace StartFault

def message : StartFault → Text
  | noEndpoint => "No GraphQL endpoint configured (set PRISMIC_GRAPHQL_ENDPOINT)"
  | invalid e => e.message

end StartFault

namespace Settings

def endpointVariable : Text := "PRISMIC_GRAPHQL_ENDPOINT"

def repositoryVariable : Text := "PRISMIC_REPOSITORY"

def tokenVariable : Text := "PRISMIC_ACCESS_TOKEN"

def directoryVariable : Text := "PRISMIC_SEARCH_DATA_DIR"

def pageSizeVariable : Text := "PRISMIC_SEARCH_PAGE_SIZE"

def allVariables : List Text :=
  [endpointVariable, repositoryVariable, tokenVariable, directoryVariable, pageSizeVariable]

def setting (environment : Entries Text) (name : Text) : Text :=
  Text.trim ((environment.get? name).getD [])

def setting? (environment : Entries Text) (name : Text) : Option Text :=
  let value := setting environment name
  if value.isEmpty then none else some value

/-- The page size that the environment sets; it has to be a positive number. -/
def pageSizeIn (environment : Entries Text) : Except SearchError Int :=
  match setting? environment pageSizeVariable with
  | none => .ok GraphQL.defaultPageSize
  | some raw =>
    let refusal := SearchError.of (.badParameter pageSizeVariable (.text raw) "a positive integer")
    match Number.readInt raw with
    | some n => if n < 1 then .error refusal else .ok n
    | none => .error refusal

def endpointOf (arguments : List Text) (environment : Entries Text) : Text :=
  match arguments with
  | endpoint :: _ => endpoint
  | [] => setting environment endpointVariable

def ofCommandLine (arguments : List Text) (environment : Entries Text) :
    Except StartFault Settings := do
  let endpoint := endpointOf arguments environment
  if endpoint.isEmpty then throw .noEndpoint
  let pageSize ← (pageSizeIn environment).mapError .invalid
  return {
    endpoint
    repository := setting? environment repositoryVariable
    token := setting? environment tokenVariable
    directory := setting? environment directoryVariable
    pageSize := .int pageSize }

/-- The part of a binary number before the point. -/
def truncated (x : Float) : Except Crash Int :=
  match Number.parts x with
  | (_, .zero) => .ok 0
  | (negative, .finite b) =>
    let n : Int := (b.value.num / b.value.den : Nat)
    .ok (if negative then -n else n)
  | _ => .error .notANumber

/-- The page size as a number. What counts as nothing means the default, and a text is read. -/
def pageSizeNumber (s : Settings) : Except Crash Int :=
  if s.pageSize.isTruthy then
    match s.pageSize with
    | .int n => .ok n
    | .bool _ => .ok 1
    | .real x => truncated x
    | .text t =>
      match Number.readInt t with
      | some n => .ok n
      | none => .error .notANumber
    | _ => .error .wrongKind
  else .ok GraphQL.defaultPageSize

end Settings

end FieldSearch
