import FieldSearch.Proofs.Transport.Pacing
import FieldSearch.Proofs.Transport.Promises

/-!
# Accounting of attempts

A breaker is told when an attempt asks to be let in, and how it ends if it was. What it is told of
an answer is decided by one test, and what the call reports by another one. The two agree on every
failure to connect and on every status below 600. An answer from 600 on is reported as an
unavailable service and recorded as a success.
-/

namespace FieldSearch.Transport

namespace Channel

variable {α : Type}

/-! ## What a breaker is told -/

/-- The end of an attempt that was let in: its reply, unless its request could not be written, and
how far its call has come then. -/
structure Closing (α : Type) where
  now : α
  reply? : Option (Reply α)
  next : Progress α

inductive Entry (α : Type) where
  | asked (now : α)
  | closed (e : Closing α)

def Closing.isFailure (e : Closing α) : Bool :=
  match e.reply? with
  | some reply => !isHealthy reply
  | none => true

def asks (now : α) (next : Progress α) : List (Entry α) :=
  match next with
  | .sleeping .. => []
  | .finished (.error (.crash _)) => [.asked now, .closed ⟨now, none, next⟩]
  | .starting | .awaiting .. | .finished _ => [.asked now]

/-- What a turn tells the breaker, read off how far its call had come and how far it comes. -/
def entries (now : α) (reply : Reply α) (p next : Progress α) : List (Entry α) :=
  match p with
  | .starting | .sleeping .. => asks now next
  | .awaiting .. => [.closed ⟨now, some reply, next⟩]
  | .finished _ => []

variable [Duration α]

/-- An attempt ends with the verdict on its reply, or because its request cannot be written. -/
inductive Closing.Fits : Closing α → Prop
  | replied (now : α) (expectJson : Bool) (attempt : Nat) (reply : Reply α) :
      Fits ⟨now, some reply, verdict expectJson attempt reply⟩
  | unwritable (now : α) (crash : Crash) : Fits ⟨now, none, .finished (.error (.crash crash))⟩

def Entry.apply (b : Breaker α) : Entry α → Breaker α
  | asked now => (b.enter now).1
  | closed e => b.exit e.now (!e.isFailure)

namespace Traffic

def run (t : Traffic α) (turns : List (Turn α)) : Traffic α := turns.foldl step t

def entries (t : Traffic α) (turn : Turn α) : List (Entry α) :=
  match t.callers[turn.id]?, t.turn? turn with
  | some caller, some (_, caller') =>
    Channel.entries turn.now turn.reply caller.progress caller'.progress
  | _, _ => []

end Traffic

/-! ## What an attempt reports -/

namespace Closing

section

variable (service : Text) (now : Float) (expectJson : Bool) (attempt : Nat) (a : Answer Float)

end

end Closing

/-! ## The accounts of a run -/

namespace Traffic

section

def bare (status : Nat) : Reply Float := (Delivery.answered status (some []) [] [] []).reply

end

end Traffic

end Channel

end FieldSearch.Transport
