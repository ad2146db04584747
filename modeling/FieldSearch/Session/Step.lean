import FieldSearch.Session.Basic

/-!
# Steps of a session

What happens in a session: a call starts, a reply arrives, a call wakes because the flight it waits
for has ended, or a call is cancelled. Between two steps nothing moves, so any interleaving of calls
and replies is a list of steps.

A search that has been overtaken by a later one when its reply arrives is stale, and so is one that
finds no eligible type by then.
-/

namespace FieldSearch

open GraphQL (SearchDocument)

namespace Session

/-! ## With the types known -/

/-- The search document for a text, if some type is eligible. -/
def searchFor (s : Session) (types : List DocumentType) (raw : Text) :
    Except Crash (Option SearchDocument) :=
  match resolveTypes types (Constraints.ofText raw) with
  | [] => .ok none
  | resolved => (SearchDocument.ofResolutions s.pageSize resolved).map some

/-- The outcome of a search that comes to its end now. -/
def current (s : Session) (o : Outcome) : Outcome :=
  if s.isLatest o.seq then o else { seq := o.seq, raw := o.raw, status := .stale }

def search (s : Session) (id seq : Nat) (types : List DocumentType) (raw : Text) : Session :=
  match s.searchFor types raw with
  | .error c => s.finish id (.error (.crash c))
  | .ok none => s.conclude id (s.current { seq, raw, status := .noEligibleType })
  | .ok (some d) =>
    match d.render with
    | .error c => s.finish id (.error (.crash c))
    | .ok document => (s.setStage id (.searching d.rootFields)).send (.call id) document

def proceed (s : Session) (id : Nat) (types : List DocumentType) (call : Call) : Session :=
  match call.request with
  | .trigger raw => s.search id call.seq types raw
  | .suggest raw => s.finish id (.ok (.suggestions (suggestFields types raw)))
  | .compile raw => s.finish id (((s.searchFor types raw).map .document).mapError .crash)
  | .documentTypes => s.finish id (.ok (.types types))

/-! ## Without them -/

def isUnavailable : Failure → Bool
  | .error { cause := .schema _, .. } => true
  | _ => false

/-- A call ends because the types cannot be had. Searches and suggestions bear an unavailable
schema; they come back empty-handed. -/
def giveUp (s : Session) (id : Nat) (f : Failure) (call : Call) : Session :=
  match call.request with
  | .trigger raw =>
    if isUnavailable f then s.conclude id { seq := call.seq, raw, status := .unavailable }
    else s.finish id (.error f)
  | .suggest _ =>
    if isUnavailable f then s.finish id (.ok (.suggestions [])) else s.finish id (.error f)
  | .compile _ | .documentTypes => s.finish id (.error f)

/-! ## Starting -/

def discover (s : Session) (id : Nat) (call : Call) : Session :=
  let (discovery, admission) := s.discovery.enroll
  let s := { s with discovery }
  match admission with
  | .known types => s.proceed id types call
  | .refused f => s.giveUp id f call
  | .waiting n => s.setStage id (.waiting n)
  | .opened n => (s.setStage id (.waiting n)).send (.flight n) GraphQL.typesDocument

/-- Enters a call; a search takes the next number. -/
def enter (s : Session) (request : Request) : Session × Call :=
  match request with
  | .trigger _ =>
    let call : Call := { request, seq := s.latest + 1 }
    ({ s with latest := s.latest + 1, calls := s.calls ++ [call] }, call)
  | _ =>
    let call : Call := { request }
    ({ s with calls := s.calls ++ [call] }, call)

/-- Starts a call; its place among the calls names it. -/
def start (s : Session) (request : Request) : Session :=
  let id := s.calls.length
  let (s, call) := s.enter request
  match request with
  | .trigger raw =>
    if (Text.trim raw).isEmpty then
      s.conclude id { seq := call.seq, raw, status := .restored }
    else if Constraints.isQuery raw then s.discover id call
    else s.conclude id { seq := call.seq, raw, status := .notAQuery }
  | .compile raw =>
    if Constraints.isQuery raw then s.discover id call
    else s.finish id (.ok (.document none))
  | .suggest _ | .documentTypes => s.discover id call

/-! ## Replies -/

/-- The reply to a search document. An error of the backend concerns only the latest search. -/
def receive (s : Session) (id seq : Nat) (raw : Text) (rootFields : List Text) :
    Except Failure Json → Session
  | .error (.crash c) => s.finish id (.error (.crash c))
  | .error (.error e) =>
    if s.isLatest seq then s.finish id (.error (.error e))
    else s.conclude id { seq, raw, status := .stale }
  | .ok data =>
    if s.isLatest seq then
      match Record.aggregate data (some rootFields) with
      | .error f => s.finish id (.error f)
      | .ok records => s.conclude id { seq, raw, status := .results, records }
    else s.conclude id { seq, raw, status := .stale }

/-- Hands a reply to the sender of a document, if it still waits for it. -/
def answer (s : Session) (sender : Sender) (reply : Except Failure Json) : Session :=
  match sender with
  | .flight n =>
    let (discovery, next) := s.discovery.receive n reply
    let s := { s with discovery }
    match next with
    | some document => s.send (.flight n) document
    | none => s
  | .call id =>
    match s.calls[id]? with
    | some { request := .trigger raw, seq, stage := .searching rootFields } =>
      s.receive id seq raw rootFields reply
    | _ => s

/-! ## Waking and cancelling -/

/-- The end of the flight that a call waits for. -/
def ending? (s : Session) (call : Call) : Option (Nat × Except Failure (List DocumentType)) :=
  match call.stage with
  | .waiting n => (s.discovery.ending? n).map (n, ·)
  | _ => none

/-- A call whose flight has ended goes on. -/
def wake (s : Session) (id : Nat) : Session :=
  match s.calls[id]? with
  | none => s
  | some call =>
    match s.ending? call with
    | none => s
    | some (n, ending) =>
      let s := { s with discovery := s.discovery.leave n }
      match ending with
      | .ok types => s.proceed id types call
      | .error f => s.giveUp id f call

/-- Cancels a call that has not ended. -/
def cancel (s : Session) (id : Nat) : Session :=
  match (s.calls[id]?).map Call.stage with
  | some (.waiting n) => { s with discovery := s.discovery.leave n }.setStage id .cancelled
  | some (.searching _) => s.setStage id .cancelled
  | _ => s

end Session

/-! ## Events -/

inductive Event where
  | start (request : Request)
  | answer (sender : Sender) (reply : Except Failure Json)
  | wake (id : Nat)
  | cancel (id : Nat)

namespace Session

def step (s : Session) : Event → Session
  | .start request => s.start request
  | .answer sender reply => s.answer sender reply
  | .wake id => s.wake id
  | .cancel id => s.cancel id

def run (s : Session) (events : List Event) : Session := events.foldl step s

end Session

end FieldSearch
