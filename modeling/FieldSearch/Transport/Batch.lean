import FieldSearch.Transport.Channel

/-!
# Batches

Calls that run side by side. They take turns in the order in which they become ready: a call that
has sent a request lets the others go on before it takes the reply, and a call that waits for
another one is ready again when that one wakes it. A sleep passes time for everybody.
-/

namespace FieldSearch.Transport

/-- What a call does at the end of its turn. -/
inductive Move (α : Type) where
  | sleep (delay : α)
  | send (wire : Wire)
  | rest

/-- The calls `τ` of a client `σ`: one turn of a call, which may wake another one. -/
structure Machine (σ τ α : Type) where
  turn : (id : Nat) → (now : α) → Option (Reply α) → σ → τ → σ × τ × Option Nat
  move : τ → Move α

structure Batch (σ τ α ω : Type) where
  now : α
  client : σ
  source : ω
  calls : List τ
  ready : List (Nat × Option Wire)
  sent : List Wire := []
  sleeps : List α := []

namespace Batch

variable {σ τ α ω : Type} [Duration α]

def start (now : α) (client : σ) (source : ω) (calls : List τ) : Batch σ τ α ω :=
  { now, client, source, calls, ready := (List.range calls.length).map (·, none) }

/-- Lets the call at the head of the line have its turn. -/
def step (m : Machine σ τ α) (respond : Wire → ω → Reply α × ω) (b : Batch σ τ α ω) :
    Batch σ τ α ω :=
  match b.ready with
  | [] => b
  | (id, due) :: rest =>
    match b.calls[id]? with
    | none => { b with ready := rest }
    | some call =>
      let (reply, source) : Option (Reply α) × ω :=
        match due with
        | some wire => let (reply, source) := respond wire b.source; (some reply, source)
        | none => (none, b.source)
      let (client, call, woken) := m.turn id b.now reply b.client call
      let b :=
        { b with
          client, source
          calls := b.calls.set id call
          ready := rest ++ (woken.map (·, none)).toList }
      match m.move call with
      | .sleep delay =>
        { b with now := b.now + delay, sleeps := b.sleeps ++ [delay], ready := (id, none) :: b.ready }
      | .send wire => { b with sent := b.sent ++ [wire], ready := b.ready ++ [(id, some wire)] }
      | .rest => b

def steps (m : Machine σ τ α) (respond : Wire → ω → Reply α × ω) :
    Nat → Batch σ τ α ω → Batch σ τ α ω
  | 0, b => b
  | n + 1, b => if b.ready.isEmpty then b else steps m respond n (step m respond b)

/-- More turns than a call can have: two requests with four attempts of three turns each. -/
def turnsPerCall : Nat := 32

def run (m : Machine σ τ α) (respond : Wire → ω → Reply α × ω) (b : Batch σ τ α ω) :
    Batch σ τ α ω := steps m respond (turnsPerCall * b.calls.length) b

end Batch

/-- A client between batches: the time, and where its replies come from. -/
structure Line (σ α ω : Type) where
  now : α
  client : σ
  source : ω

namespace Line

variable {σ τ α ω : Type} [Duration α]

def run (m : Machine σ τ α) (respond : Wire → ω → Reply α × ω) (l : Line σ α ω) (calls : List τ) :
    Line σ α ω × Batch σ τ α ω :=
  let batch := (Batch.start l.now l.client l.source calls).run m respond
  (⟨batch.now, batch.client, batch.source⟩, batch)

end Line

def Progress.move {α : Type} : Progress α → Move α
  | .sleeping delay _ => .sleep delay
  | .awaiting wire _ => .send wire
  | .starting | .finished _ => .rest

def Channel.machine (α : Type) [Duration α] : Machine (Channel α) (Channel.Call × Progress α) α where
  turn _ now reply c call :=
    let (c, progress) := c.advance now call.1 reply call.2
    (c, (call.1, progress), none)
  move call := call.2.move

end FieldSearch.Transport
