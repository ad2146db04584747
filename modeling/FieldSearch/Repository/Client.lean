import FieldSearch.Json.Access
import FieldSearch.Repository.Endpoint
import FieldSearch.Repository.QueryUrl
import FieldSearch.Transport.Batch

/-!
# The repository client

A repository has a descriptor that names its refs. The client fetches it once: a call that needs it
while another one fetches it waits for its turn. Each GraphQL request then carries the master ref,
the integration ref if there is one, and the access token if one is configured.
-/

namespace FieldSearch.Repository

open Transport

inductive Fault (α : Type) where
  | refused (r : Refusal α)
  | badDescriptor
  | noMasterRef
  | badPayload
  | graphqlErrors (messages : Text) (errors : Json)
  | noData
  | shape (f : ShapeFault)

abbrev Result (α : Type) := Except (Fault α) Json

inductive Purpose where
  | descriptor
  | headers
  | query (document : Text)

inductive Stage (α : Type) where
  | starting
  | queued
  | fetching (p : Progress α)
  | querying (call : Channel.Call) (p : Progress α)
  | finished (result : Result α)

/-- The client, with the addresses that its network takes. At most one call, the holder, fetches the
descriptor; others wait in line. -/
structure Client (α : Type) where
  endpoints : Endpoints
  token : Option Text
  channel : Channel α
  accepts : Text → Bool := isAddress
  descriptor : Option (Entries Json) := none
  holder : Option Nat := none
  line : List Nat := []

namespace Client

variable {α : Type} [Duration α]

def serviceName : Text := "Prismic"

def defaults : Entries Json :=
  [(("User-Agent" : Text), .text "prismic-search-mcp/0.1"), (("Accept" : Text), .text "application/json")]

def ofEndpoint (endpoint : Text) (name token : Option Text) (interval : α) :
    Except SearchError (Client α) := do
  let endpoints ← Endpoints.resolve endpoint name
  return { endpoints, token, channel := .fresh interval Channel.defaultBreaker }

def token? (c : Client α) : Option Text := c.token.filter (!List.isEmpty ·)

def wire (c : Client α) (url : Text) (own : Entries Json) : Except Crash Wire :=
  Wire.make c.accepts url defaults own

def descriptorUrl (c : Client α) : Text :=
  c.endpoints.descriptor ++ match c.token? with
    | some t => "?access_token=" ++ Text.formEncode t
    | none => []

def descriptorCall (c : Client α) : Channel.Call where
  wire := c.wire c.descriptorUrl []

/-! ## Headers -/

/-- The first ref that is marked as the master ref. -/
def masterRef? : List Json → Except ShapeFault (Option Json)
  | [] => .ok none
  | ref :: rest => do
    if (← Json.lookup "isMasterRef" ref).isTruthy then return some ref
    masterRef? rest

def refs (descriptor : Entries Json) : Except ShapeFault (List Json) :=
  let refs := (Entries.get? "refs" descriptor).getD .null
  if refs.isTruthy then refs.elements else .ok []

/-- The reference of the master ref; `none` if there is no usable one. -/
def masterReference (descriptor : Entries Json) : Except ShapeFault (Option Json) := do
  let some ref ← masterRef? (← refs descriptor) | return none
  let reference ← Json.lookup "ref" ref
  return if reference.isTruthy then some reference else none

def integrationHeader (descriptor : Entries Json) : Entries Json :=
  match Entries.get? "integrationFieldRef" descriptor with
  | some ref => if ref.isTruthy then [("Prismic-integration-field-ref", ref)] else []
  | none => []

def tokenHeader (token : Option Text) : Entries Json :=
  match token with
  | some t => [("Authorization", .text ("Token " ++ t))]
  | none => []

def requestHeaders (c : Client α) (descriptor : Entries Json) : Except (Fault α) (Entries Json) :=
  match masterReference descriptor with
  | .error f => .error (.shape f)
  | .ok none => .error .noMasterRef
  | .ok (some reference) =>
    .ok ((("Prismic-ref" : Text), reference) :: integrationHeader descriptor
      ++ tokenHeader c.token?)

def queryCall (c : Client α) (headers : Entries Json) (document : Text) : Channel.Call where
  wire := c.wire (queryUrl c.endpoints.graphql document) headers

/-! ## Payloads -/

/-- What is told of an error: its message if it has one, else all of it. -/
def errorMessage : Json → Json
  | .object members => (Entries.get? "message" members).getD (.object members)
  | value => value

/-- The messages of the errors in a payload, each of which is written. -/
def errorMessages (errors : Json) : Except (Fault α) (List Text) :=
  if errors.isTruthy then do
    let parts ← errors.elements.mapError .shape
    (parts.mapM fun e => (errorMessage e).written).mapError fun c => .refused (.crash c)
  else .ok []

/-- The `data` member of a GraphQL payload. Errors count only where there is no data. -/
def payloadData : Json → Result α
  | .object payload =>
    let errors := (Entries.get? "errors" payload).getD .null
    let data := (Entries.get? "data" payload).getD .null
    match errorMessages errors with
    | .error f => .error f
    | .ok messages =>
      if errors.isTruthy && data.isNull then
        .error (.graphqlErrors (Text.join "; " messages) errors)
      else match data with
        | .object members => .ok (.object members)
        | _ => .error .noData
  | _ => .error .badPayload

/-! ## Turns -/

def settleQuery (call : Channel.Call) : Progress α → Stage α
  | .finished (.ok payload) => .finished (payloadData payload)
  | .finished (.error r) => .finished (.error (.refused r))
  | p => .querying call p

/-- What is left to do once the descriptor is known. -/
def withDescriptor (c : Client α) (now : α) (descriptor : Entries Json) :
    Purpose → Client α × Stage α
  | .descriptor => (c, .finished (.ok (.object descriptor)))
  | .headers => (c, .finished ((c.requestHeaders descriptor).map .object))
  | .query document =>
    match c.requestHeaders descriptor with
    | .error fault => (c, .finished (.error fault))
    | .ok headers =>
      let call := c.queryCall headers document
      let (channel, p) := c.channel.advance now call none .starting
      ({ c with channel }, settleQuery call p)

/-- Hands the right to fetch on to the next call in line, which wakes. -/
def release (c : Client α) : Client α × Option Nat :=
  match c.line with
  | [] => ({ c with holder := none }, none)
  | next :: rest => ({ c with holder := some next, line := rest }, some next)

/-- Goes on when the fetch of the descriptor has moved. -/
def settleFetch (c : Client α) (now : α) (purpose : Purpose) :
    Progress α → Client α × Stage α × Option Nat
  | .finished (.ok (.object descriptor)) =>
    let (c, woken) := { c with descriptor := some descriptor }.release
    let (c, stage) := c.withDescriptor now descriptor purpose
    (c, stage, woken)
  | .finished (.ok _) => let (c, woken) := c.release; (c, .finished (.error .badDescriptor), woken)
  | .finished (.error r) => let (c, woken) := c.release; (c, .finished (.error (.refused r)), woken)
  | p => (c, .fetching p, none)

def fetch (c : Client α) (now : α) (purpose : Purpose) (reply : Option (Reply α))
    (p : Progress α) : Client α × Stage α × Option Nat :=
  let (channel, p) := c.channel.advance now c.descriptorCall reply p
  { c with channel }.settleFetch now purpose p

def turn (purpose : Purpose) (id : Nat) (now : α) (reply : Option (Reply α)) (c : Client α) :
    Stage α → Client α × Stage α × Option Nat
  | .starting =>
    match c.descriptor, c.holder with
    | some descriptor, _ => let (c, stage) := c.withDescriptor now descriptor purpose; (c, stage, none)
    | none, none => { c with holder := some id }.fetch now purpose none .starting
    | none, some _ => ({ c with line := c.line ++ [id] }, .queued, none)
  | .queued =>
    match c.descriptor with
    | some descriptor =>
      let (c, woken) := c.release
      let (c, stage) := c.withDescriptor now descriptor purpose
      (c, stage, woken)
    | none => c.fetch now purpose none .starting
  | .fetching p => c.fetch now purpose reply p
  | .querying call p =>
    let (channel, p) := c.channel.advance now call reply p
    ({ c with channel }, settleQuery call p, none)
  | .finished result => (c, .finished result, none)

end Client

def Stage.move {α : Type} : Stage α → Move α
  | .fetching p | .querying _ p => p.move
  | .starting | .queued | .finished _ => .rest

def Client.machine (α : Type) [Duration α] : Machine (Client α) (Purpose × Stage α) α where
  turn id now reply c call :=
    let (c, stage, woken) := c.turn call.1 id now reply call.2
    (c, (call.1, stage), woken)
  move call := call.2.move

/-! ## Errors -/

namespace Fault

def backend (message : Text) (errors : Json) : Failure := .ofCause (.backend message none errors)

def failure : Fault Float → Failure
  | refused r => r.failure Client.serviceName
  | badDescriptor => backend "Prismic API descriptor is not a JSON object" (.array [])
  | noMasterRef => backend "Prismic API descriptor has no master ref" (.array [])
  | badPayload => backend "GraphQL response is not a JSON object" (.array [])
  | graphqlErrors messages errors => backend ("GraphQL errors: " ++ messages) errors
  | noData => backend "GraphQL response has no data" (.array [])
  | shape f => .ofShape f

/-- The failure of a query: every error becomes a failed request to the backend. -/
def queryFailure (f : Fault Float) : Failure :=
  match f.failure with
  | .error e =>
    match e.cause with
    | .backend .. => .error e
    | _ => backend ("Prismic request failed: " ++ e.message) (.array [])
  | .crash c => .crash c

end Fault

/-- How a call of the client ends. -/
def Purpose.outcome (purpose : Purpose) (result : Result Float) : Except Failure Json :=
  match purpose with
  | .query _ => result.mapError Fault.queryFailure
  | .descriptor | .headers => result.mapError Fault.failure

end FieldSearch.Repository
