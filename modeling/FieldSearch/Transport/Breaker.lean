import FieldSearch.Duration

/-!
# Circuit breaker

Guards calls to a backend. After a number of failures it trips: calls are rejected until the
recovery time has passed, then a few trial calls are let through. A trial that succeeds closes the
breaker, one that fails trips it again. Guarded calls may overlap, so a call may end in another
state than the one it began in.
-/

namespace FieldSearch

inductive BreakerState where
  | closed
  | tripped
  | probing
deriving DecidableEq

def BreakerState.text : BreakerState → Text
  | closed => "closed"
  | tripped => "open"
  | probing => "half_open"

inductive Rejection where
  | cooling
  | trialsTaken
deriving DecidableEq

structure Breaker (α : Type) where
  threshold : Nat
  recovery : α
  maxTrials : Nat
  state : BreakerState := .closed
  failures : Nat := 0
  lastFailure : α
  trials : Nat := 0

namespace Breaker

variable {α : Type} [Duration α]

def fresh (threshold : Nat) (recovery : α) (maxTrials : Nat) : Breaker α :=
  { threshold, recovery, maxTrials, lastFailure := Duration.ofNat 0 }

def isCooling (b : Breaker α) (now : α) : Bool := now - b.lastFailure ≤ b.recovery

def rejectsAll (b : Breaker α) (now : α) : Bool := b.state = .tripped && b.isCooling now

def tryTrial (b : Breaker α) : Breaker α × Option Rejection :=
  if b.maxTrials ≤ b.trials then (b, some .trialsTaken)
  else ({ b with trials := b.trials + 1 }, none)

/-- A call asks to be let in. -/
def enter (b : Breaker α) (now : α) : Breaker α × Option Rejection :=
  match b.state with
  | .closed => (b, none)
  | .tripped =>
    if b.isCooling now then (b, some .cooling) else { b with state := .probing, trials := 0 }.tryTrial
  | .probing => b.tryTrial

def succeed (b : Breaker α) : Breaker α :=
  match b.state with
  | .probing => { b with state := .closed, failures := 0 }
  | _ => { b with failures := b.failures - 1 }

def fail (b : Breaker α) (now : α) : Breaker α :=
  let failures := b.failures + 1
  { b with
    failures := failures
    lastFailure := now
    state := if b.threshold ≤ failures then .tripped else b.state }

/-- A call that was let in ends. -/
def exit (b : Breaker α) (now : α) (ok : Bool) : Breaker α := if ok then b.succeed else b.fail now

def retryAfter (b : Breaker α) : Rejection → α
  | .cooling => b.recovery
  | .trialsTaken => b.recovery / Duration.ofNat 2

end Breaker

def Rejection.message : Rejection → Text
  | .cooling => "Circuit breaker is open"
  | .trialsTaken => "Circuit breaker is half-open (max calls reached)"

end FieldSearch
