import FieldSearch.Proofs.Repository.Turns

/-!
# Where a query stumbles

In a turn a query may meet what it cannot read or write: a garbled body, refs that are no objects,
an address that the network refuses, a text that no header can carry, or errors that cannot be
listed or written. It crashes in exactly these turns. Whatever else ends it is the data of its
payload or a failure of the backend.
-/

namespace FieldSearch

namespace Repository

open Transport

/-! ## Faults -/

/-- A call that has come this far crashes exactly if it stumbles, and it succeeds with an object. -/
def Stage.Answers {α : Type} (stumbles : Prop) : Stage α → Prop
  | .finished (.ok value) => ¬ stumbles ∧ ∃ members, value = .object members
  | .finished (.error fault) => fault.IsCrash ↔ stumbles
  | .starting | .queued | .fetching _ | .querying .. => ¬ stumbles

variable {α : Type} {stage : Stage α} {p q : Prop}

theorem Stage.Answers.congr (h : stage.Answers p) (hiff : p ↔ q) : stage.Answers q := by
  rw [← hiff]
  exact h

namespace Client

variable [Duration α] {c : Client α} {now : α} {reply : Reply α} {descriptor : Entries Json}
  {id : Nat} {document : Text}

/-- With this descriptor no query can be made, or its request cannot be written. -/
def CannotAsk (c : Client α) (channel : Channel α) (now : α) (descriptor : Entries Json)
    (document : Text) : Prop :=
  ¬ RefsFit descriptor ∨
    (∃ ref, masterReference descriptor = .ok (some ref)) ∧ ¬ c.Writable descriptor document ∧
      channel.IsDue now .starting ∧ channel.Admits now

/-- A call that has come this far goes on to fetch the descriptor. -/
inductive Fetches (c : Client α) : Stage α → Progress α → Prop
  | starting : c.descriptor = none → c.holder = none → Fetches c .starting .starting
  | queued : c.descriptor = none → Fetches c .queued .starting
  | fetching (progress : Progress α) : Fetches c (.fetching progress) progress

/-- In this turn a query for a document meets what it cannot read or write. -/
inductive Stumbles (c : Client α) (document : Text) (now : α) (reply : Reply α) : Stage α → Prop
  | knows {descriptor : Entries Json} {stage : Stage α} : stage = .starting ∨ stage = .queued →
      c.descriptor = some descriptor → c.CannotAsk c.channel now descriptor document →
      Stumbles c document now reply stage
  | noAddress {stage : Stage α} {progress : Progress α} : c.Fetches stage progress →
      c.accepts c.descriptorUrl = false → c.channel.IsDue now progress → c.channel.Admits now →
      Stumbles c document now reply stage
  | garbledDescriptor {wire : Wire} {attempt : Nat} {a : Transport.Answer α} :
      reply = .answered a → a.isSuccess = true → IsGarbled a.body →
      Stumbles c document now reply (.fetching (.awaiting wire attempt))
  | fetched {wire : Wire} {attempt : Nat} {a : Transport.Answer α} {descriptor : Entries Json} :
      reply = .answered a → a.isSuccess = true → a.read true = .ok (.object descriptor) →
      c.CannotAsk { c.channel with breaker := c.channel.breaker.succeed } now descriptor document →
      Stumbles c document now reply (.fetching (.awaiting wire attempt))
  | unwritable {descriptor : Entries Json} {call : Channel.Call} {progress : Progress α} :
      c.descriptor = some descriptor → ¬ c.Writable descriptor document →
      c.channel.IsDue now progress → c.channel.Admits now →
      Stumbles c document now reply (.querying call progress)
  | garbledPayload {call : Channel.Call} {wire : Wire} {attempt : Nat} {a : Transport.Answer α} :
      reply = .answered a → a.isSuccess = true → IsGarbled a.body →
      Stumbles c document now reply (.querying call (.awaiting wire attempt))
  | errors {call : Channel.Call} {wire : Wire} {attempt : Nat} {a : Transport.Answer α}
      {payload : Entries Json} : reply = .answered a → a.isSuccess = true →
      a.read true = .ok (.object payload) → ¬ ErrorsFit payload →
      Stumbles c document now reply (.querying call (.awaiting wire attempt))

end Client

end Repository

end FieldSearch
