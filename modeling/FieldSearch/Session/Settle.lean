import FieldSearch.Session.Step

/-!
# Settling

A session in front of a backend. The backend takes each document that the session sends and either
replies at once or keeps it for later; calls whose flight has ended wake in the order in which they
were started. This goes on until nothing is left to do.
-/

namespace FieldSearch

/-- A backend: a reply to a document, or `none` if the reply comes later. -/
abbrev Backend (ω : Type) := Text → ω → Option (Except Failure Json) × ω

/-- A session with its backend and the number of documents handed over so far. -/
structure Running (ω : Type) where
  session : Session
  backend : ω
  handed : Nat := 0

namespace Session

/-- The first call that waits for a flight that has ended. -/
def next? (s : Session) : Option Nat :=
  s.calls.findIdx? fun call => (s.ending? call).isSome

end Session

namespace Running

variable {ω : Type}

/-- Hands over one document, or wakes one call; `none` if there is neither. -/
def move? (ask : Backend ω) (r : Running ω) : Option (Running ω) :=
  match r.session.sent[r.handed]? with
  | some (sender, document) =>
    let (reply, backend) := ask document r.backend
    let session := match reply with
      | some reply => r.session.answer sender reply
      | none => r.session
    some { session, backend, handed := r.handed + 1 }
  | none => r.session.next?.map fun id => { r with session := r.session.wake id }

def moves (ask : Backend ω) : Nat → Running ω → Running ω
  | 0, r => r
  | n + 1, r =>
    match r.move? ask with
    | some r => moves ask n r
    | none => r

/-- Lets everything happen that can. A call wakes once and sends one document, and a flight, which
a call has opened, sends two. -/
def settle (ask : Backend ω) (r : Running ω) : Running ω :=
  r.moves ask (4 * r.session.calls.length)

def act (ask : Backend ω) (r : Running ω) (e : Event) : Running ω :=
  { r with session := r.session.step e }.settle ask

end Running

end FieldSearch
