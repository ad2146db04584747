import FieldSearch.Query.Suggestion
import FieldSearch.Results.Outcome
import FieldSearch.Schema.Discovery

/-!
# Sessions

A session answers calls: searches, suggestions, compilations and requests for the document types.
Searches are numbered in the order of their start, and only the latest one may change the view. A
session keeps everything it has sent and published, in order.
-/

namespace FieldSearch

/-- What the reader sees: the full listing, the records of a search, or the listing again. -/
inductive View where
  | idle
  | showing (seq : Nat) (raw : Text) (records : List Record)
  | cleared

namespace View

def state : View → Text
  | idle => "idle"
  | showing .. => "showing_results"
  | cleared => "cleared"

def isShowing : View → Bool
  | showing .. => true
  | idle | cleared => false

end View

inductive Request where
  | trigger (raw : Text)
  | suggest (raw : Text)
  | compile (raw : Text)
  | documentTypes

inductive Answer where
  | outcome (o : Outcome)
  | suggestions (names : List Text)
  | document (d : Option GraphQL.SearchDocument)
  | types (types : List DocumentType)

inductive Stage where
  | starting
  | waiting (flight : Nat)
  | searching (rootFields : List Text)
  | finished (result : Except Failure Answer)
  | cancelled

def Stage.hasEnded : Stage → Bool
  | finished _ | cancelled => true
  | starting | waiting _ | searching _ => false

/-- A call; a search has a number, other calls have none. -/
structure Call where
  request : Request
  seq : Nat := 0
  stage : Stage := .starting

/-- Who sent a document and takes the reply to it. -/
inductive Sender where
  | flight (n : Nat)
  | call (id : Nat)
deriving DecidableEq

structure Session where
  pageSize : GraphQL.Value
  discovery : Discovery := {}
  latest : Nat := 0
  view : View := .idle
  lastQueried : Option Text := none
  calls : List Call := []
  sent : List (Sender × Text) := []
  published : List Outcome := []

namespace Session

def isLatest (s : Session) (seq : Nat) : Bool := seq = s.latest

def setStage (s : Session) (id : Nat) (stage : Stage) : Session :=
  { s with calls := s.calls.modify id ({ · with stage }) }

def finish (s : Session) (id : Nat) (result : Except Failure Answer) : Session :=
  s.setStage id (.finished result)

def send (s : Session) (sender : Sender) (document : Text) : Session :=
  { s with sent := s.sent ++ [(sender, document)] }

/-- Shows an outcome to the reader, if it is one that is shown. -/
def publish (s : Session) (o : Outcome) : Session :=
  match o.status with
  | .restored => { s with view := .cleared, published := s.published ++ [o] }
  | .results | .noEligibleType =>
    { s with
      view := .showing o.seq o.raw o.records
      lastQueried := some o.raw
      published := s.published ++ [o] }
  | .notAQuery | .unavailable | .stale => s

def conclude (s : Session) (id : Nat) (o : Outcome) : Session :=
  (s.publish o).finish id (.ok (.outcome o))

/-- The calls that have ended since an earlier state, by their places. -/
def endedSince (s earlier : Session) : List (Nat × Stage) :=
  s.calls.zipIdx.filterMap fun (call, id) =>
    if call.stage.hasEnded && !(earlier.calls[id]?).any (·.stage.hasEnded) then
      some (id, call.stage)
    else none

end Session

end FieldSearch
