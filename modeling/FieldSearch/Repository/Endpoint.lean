import FieldSearch.Transport.Request

/-!
# Endpoints

A repository answers at two URLs: its descriptor and its GraphQL endpoint. The endpoint of a hosted
repository is recognised by its host, and both URLs then go to the delivery host of the same
repository. Any other endpoint is kept as it is, and the repository has to be named.
-/

namespace FieldSearch.Repository

open Transport (afterScheme?)

def hostedDomains : List Text := ["wroom.test", "wroom.io", "prismic.io"]

/-- A hosted repository: the label that names it and the domain it lives under. -/
structure Host where
  label : Text
  domain : Text
deriving DecidableEq

/-- Recognises a hosted endpoint: one label, perhaps the delivery label, a hosted domain and a path
that begins with `/graphql`. -/
def Host.ofEndpoint? (endpoint : Text) : Option Host := do
  let (label, rest) ← (← afterScheme? endpoint).cut '.'
  if label.isEmpty then none
  else
    let rest := rest.stripPrefix "cdn."
    let domain ← hostedDomains.find? fun d => List.isPrefixOf (d ++ "/graphql" : Text) rest
    return ⟨label, domain⟩

def Host.base (h : Host) : Text := "https://" ++ h.label ++ ".cdn." ++ h.domain

structure Endpoints where
  descriptor : Text
  graphql : Text
deriving DecidableEq

def nameRequired : Text :=
  Text.lines
    ["Since you are using a custom GraphQL endpoint, you need to provide your repository name:",
     "  PRISMIC_GRAPHQL_ENDPOINT=https://mycustomdomain.com/graphql",
     "  PRISMIC_REPOSITORY=my-prismic-repository"]

def descriptorUrl (base : Text) : Text := base ++ "/api"

/-- Resolves an endpoint; the name counts only for an endpoint that is not hosted. -/
def Endpoints.resolve (endpoint : Text) (name : Option Text) : Except SearchError Endpoints :=
  match Host.ofEndpoint? endpoint with
  | some host => .ok ⟨descriptorUrl host.base, host.base ++ "/graphql"⟩
  | none =>
    match name with
    | none | some [] => .error (.of (.configuration nameRequired))
    | some name => .ok ⟨descriptorUrl (Host.base ⟨name, "prismic.io"⟩), endpoint⟩

/-- Whether a name was given that does not count. -/
def isNameIgnored (endpoint : Text) (name : Option Text) : Bool :=
  (Host.ofEndpoint? endpoint).isSome && name.any (!List.isEmpty ·)

end FieldSearch.Repository
