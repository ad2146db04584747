import FieldSearch.Transport.Breaker
import FieldSearch.Transport.Reply
import FieldSearch.Transport.Request

/-!
# The channel

All requests of a client pass through one channel. It keeps a least interval between requests and
guards them with a circuit breaker. A call waits for its turn, sends a request and reads the reply;
after a reply that asks for patience, and after a failure to connect, it waits and tries again, up
to four attempts in all. Any other reply ends the call.

Only failures to connect and answers from 500 to 599 count as failures of the breaker.
-/

namespace FieldSearch.Transport

inductive Refusal (α : Type) where
  | rejected (why : Rejection) (after : α)
  | rateLimited (after : α)
  | unreachable (message : Text)
  | unavailable (status : Nat) (reason : Text)
  | refused (status : Nat) (reason : Text)
  | notJson
  | crash (c : Crash)

abbrev Outcome (α : Type) := Except (Refusal α) Json

/-- What a sleeping call does when it wakes. -/
inductive Wakening where
  | sending (attempt : Nat)
  | retrying (attempt : Nat)
deriving DecidableEq

/-- How far a call has come; attempts are counted from zero. -/
inductive Progress (α : Type) where
  | starting
  | sleeping (delay : α) (next : Wakening)
  | awaiting (wire : Wire) (attempt : Nat)
  | finished (outcome : Outcome α)

structure Channel (α : Type) where
  interval : α
  lastRequest : α
  breaker : Breaker α

namespace Channel

variable {α : Type} [Duration α]

open Duration (ofNat)

def fresh (interval : α) (breaker : Breaker α) : Channel α :=
  { interval, lastRequest := ofNat 0, breaker }

def defaultBreaker : Breaker α := .fresh 10 (ofNat 60) 3

def maxRetries : Nat := 3

/-- The wait after a failed attempt: 2, 4, 8 seconds. -/
def backoff (attempt : Nat) : α := ofNat (Nat.pow 2 (attempt + 1))

/-- How long a request has to wait for its turn. -/
def wait? (c : Channel α) (now : α) : Option α :=
  let wait := c.interval - (now - c.lastRequest)
  if ofNat 0 < wait then some wait else none

/-- Sends the request of an attempt, if the breaker lets it in. A request that cannot be written
ends the call inside of the guard. -/
def send (c : Channel α) (now : α) (wire : Except Crash Wire) (attempt : Nat) :
    Channel α × Progress α :=
  let (breaker, rejection) := c.breaker.enter now
  let c := { c with lastRequest := now, breaker := breaker }
  match rejection with
  | some why => (c, .finished (.error (.rejected why (breaker.retryAfter why))))
  | none =>
    match wire with
    | .ok wire => (c, .awaiting wire attempt)
    | .error crash => ({ c with breaker := breaker.fail now }, .finished (.error (.crash crash)))

def begin (c : Channel α) (now : α) (wire : Except Crash Wire) (attempt : Nat) :
    Channel α × Progress α :=
  match c.wait? now with
  | some wait => (c, .sleeping wait (.sending attempt))
  | none => c.send now wire attempt

def wake (c : Channel α) (now : α) (wire : Except Crash Wire) : Wakening → Channel α × Progress α
  | .sending attempt => c.send now wire attempt
  | .retrying attempt => c.begin now wire attempt

/-- Whether a reply counts as a success of the backend. -/
def isHealthy : Reply α → Bool
  | .failed _ => false
  | .answered a => !a.isServerError

/-- Sleeps before the next attempt, or gives up after the last one. -/
def again (attempt : Nat) (delay : α) (refusal : Refusal α) : Progress α :=
  if maxRetries ≤ attempt then .finished (.error refusal)
  else .sleeping delay (.retrying (attempt + 1))

def bodyOutcome (expectJson : Bool) (a : Answer α) : Outcome α :=
  match a.read expectJson with
  | .ok value => .ok value
  | .error .notJson => .error .notJson
  | .error (.crash c) => .error (.crash c)

/-- What a reply means for the call. -/
def verdict (expectJson : Bool) (attempt : Nat) : Reply α → Progress α
  | .failed message => again attempt (backoff attempt) (.unreachable message)
  | .answered a =>
    if a.status = 429 then
      let delay := a.retryAfter.getD (backoff attempt)
      again attempt delay (.rateLimited delay)
    else if a.isSuccess then .finished (bodyOutcome expectJson a)
    else if 500 ≤ a.status then .finished (.error (.unavailable a.status a.reason))
    else .finished (.error (.refused a.status a.reason))

/-- Takes the reply to the request of an attempt. -/
def receive (c : Channel α) (now : α) (expectJson : Bool) (attempt : Nat) (reply : Reply α) :
    Channel α × Progress α :=
  ({ c with breaker := c.breaker.exit now (isHealthy reply) }, verdict expectJson attempt reply)

/-- A call as its client makes it: what to send, and what to expect. -/
structure Call where
  wire : Except Crash Wire
  expectJson : Bool := true

/-- Moves a call on by one turn. A reply is there exactly if the call was waiting for one. -/
def advance (c : Channel α) (now : α) (call : Call) (reply : Option (Reply α)) :
    Progress α → Channel α × Progress α
  | .starting => c.begin now call.wire 0
  | .sleeping _ next => c.wake now call.wire next
  | .awaiting wire attempt =>
    match reply with
    | some r => c.receive now call.expectJson attempt r
    | none => (c, .awaiting wire attempt)
  | .finished outcome => (c, .finished outcome)

end Channel

namespace Refusal

/-- The error that tells of a refusal by the named service. -/
def failure (service : Text) : Refusal Float → Failure
  | rejected why after => .ofCause (.rateLimited why.message after)
  | rateLimited after =>
    .ofCause (.rateLimited (service ++ ": Rate limit exceeded after retries") after)
  | unreachable message => .ofCause (.network (service ++ " connection failed: " ++ message))
  | unavailable status reason =>
    .ofCause (.unavailable service ("HTTP " ++ Text.ofNat status ++ ": " ++ reason))
  | refused status reason =>
    .ofCause (.backend (service ++ " HTTP " ++ Text.ofNat status ++ ": " ++ reason)
      (some status) (.array []))
  | notJson => .ofCause (.unreadable "Invalid JSON response" (some service))
  | crash c => .crash c

end Refusal

end FieldSearch.Transport
