import FieldSearch.GraphQL.Document
import FieldSearch.Schema.Response

/-!
# Discovery

The document types are discovered once, by a flight that asks for the names of all types and then
for the fields of the filter types. A call that needs the types while a flight is under way waits
for that flight. A flight that failed is given up by the first call that leaves it or meets it; the
next call opens a new one.
-/

namespace FieldSearch

inductive Flight where
  | listing
  | detailing (names : List Text)
  | landed (types : List DocumentType)
  | failed (f : Failure)

/-- What is known of the schema: its types, all flights so far, and the one that calls join. -/
structure Discovery where
  types : Option (List DocumentType) := none
  flights : List Flight := []
  current : Option Nat := none

/-- How a call that needs the types is received. -/
inductive Admission where
  | known (types : List DocumentType)
  | refused (f : Failure)
  | waiting (flight : Nat)
  | opened (flight : Nat)

namespace Discovery

def set (d : Discovery) (n : Nat) (flight : Flight) : Discovery :=
  { d with flights := d.flights.set n flight }

/-- Opens a flight, which is the current one from then on. -/
def launch (d : Discovery) : Discovery × Admission :=
  ({ d with flights := d.flights ++ [.listing], current := some d.flights.length },
    .opened d.flights.length)

def enroll (d : Discovery) : Discovery × Admission :=
  match d.types, d.current with
  | some types, _ => (d, .known types)
  | none, none => d.launch
  | none, some n =>
    match d.flights[n]? with
    | some (.failed f) => ({ d with current := none }, .refused f)
    | some _ => (d, .waiting n)
    | none => d.launch

/-- A call that waited for a flight goes; a failed flight is then no longer the current one. -/
def leave (d : Discovery) (n : Nat) : Discovery :=
  match d.flights[n]? with
  | some (.failed _) => if d.current = some n then { d with current := none } else d
  | _ => d

/-- The end of a flight, once it has one. -/
def ending? (d : Discovery) (n : Nat) : Option (Except Failure (List DocumentType)) :=
  match d.flights[n]? with
  | some (.landed types) => some (.ok types)
  | some (.failed f) => some (.error f)
  | _ => none

/-- Any error of a request means that the schema is unavailable. -/
def requestFailure : Failure → Failure
  | .crash c => .crash c
  | .error e =>
    match e.cause with
    | .schema _ => .error e
    | _ => .ofCause (.schema ("Introspection request failed: " ++ e.message))

/-- Reads the reply to a document of a flight. -/
def readReply {α : Type} (reply : Except Failure Json) (read : Json → Except SearchError α) :
    Except Failure α :=
  match reply with
  | .error f => .error (requestFailure f)
  | .ok response => (read response).mapError .error

/-- All types become known at once. -/
def land (d : Discovery) (n : Nat) (types : List DocumentType) : Discovery :=
  { d.set n (.landed types) with types := some types }

/-- Takes the reply to the last document of a flight, and gives the next document it sends. -/
def receive (d : Discovery) (n : Nat) (reply : Except Failure Json) : Discovery × Option Text :=
  match d.flights[n]? with
  | some .listing =>
    match readReply reply Schema.filterTypeNames with
    | .error f => (d.set n (.failed f), none)
    | .ok [] => (d.land n [], none)
    | .ok names => (d.set n (.detailing names), some (GraphQL.inputsDocument names))
  | some (.detailing names) =>
    match readReply reply (Schema.documentTypes · names) with
    | .error f => (d.set n (.failed f), none)
    | .ok types => (d.land n types, none)
  | _ => (d, none)

end Discovery

end FieldSearch
