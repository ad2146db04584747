import FieldSearch.Proofs.Transport.Attempts
import FieldSearch.Transport.Batch

/-!
# The retry loop

A call that has no interval to keep makes its attempts one after the other. It goes on exactly after
a refusal for the rate and after a failure to connect, three times at most, and the breaker sees
every attempt. The induction is on the attempts: until the call ends, all that it has done is a
function of how many it has made.
-/

namespace FieldSearch.Transport

/-- One attempt: when it is made, when its reply arrives, and what the reply is. -/
structure Attempt (α : Type) where
  made : α
  answered : α
  reply : Reply α

/-- A call under way, with the requests that it has sent and the times that it has slept. -/
structure Trace (α : Type) where
  channel : Channel α
  progress : Progress α
  sent : List Wire
  slept : List α

namespace Trace

variable {α : Type} [Duration α]

def turn (t : Trace α) (call : Channel.Call) (now : α) (reply : Option (Reply α)) : Trace α :=
  let (c, p) := t.channel.advance now call reply t.progress
  match p.move with
  | .sleep delay => ⟨c, p, t.sent, t.slept ++ [delay]⟩
  | .send wire => ⟨c, p, t.sent ++ [wire], t.slept⟩
  | .rest => ⟨c, p, t.sent, t.slept⟩

def attempt (t : Trace α) (call : Channel.Call) (a : Attempt α) : Trace α :=
  (t.turn call a.made none).turn call a.answered (some a.reply)

/-- A call from its start, with as many attempts as it wants of those it is offered. -/
def run (c : Channel α) (call : Channel.Call) (script : Nat → Attempt α) : Nat → Trace α
  | 0 => ⟨c, .starting, [], []⟩
  | n + 1 => (run c call script n).attempt call (script n)

end Trace

/-! ## What is expected of a call -/

namespace Reply

variable {α : Type}

def isTransient : Reply α → Bool
  | failed _ => true
  | answered a => a.status = 429

def isFailure : Reply α → Bool
  | failed _ => true
  | answered a => 500 ≤ a.status && a.status ≤ 599

/-- How long to wait after an attempt; attempts are counted from zero. -/
def pause [Duration α] (attempt : Nat) : Reply α → α
  | failed _ => Duration.ofNat (Nat.pow 2 (attempt + 1))
  | answered a => a.retryAfter.getD (Duration.ofNat (Nat.pow 2 (attempt + 1)))

/-- What the last attempt decides. -/
def conclusion [Duration α] (expectJson : Bool) (attempt : Nat) (reply : Reply α) : Outcome α :=
  match reply with
  | failed message => .error (.unreachable message)
  | answered a =>
    if a.status = 429 then .error (.rateLimited (reply.pause attempt))
    else if a.isSuccess then Channel.bodyOutcome expectJson a
    else if 500 ≤ a.status then .error (.unavailable a.status a.reason)
    else .error (.refused a.status a.reason)

theorem isHealthy_eq (reply : Reply α) : Channel.isHealthy reply = !reply.isFailure := by
  cases reply with
  | failed message => rfl
  | answered a =>
    rw [Channel.isHealthy, Answer.isServerError, Reply.isFailure]
    congr 2
    exact decide_eq_decide.mpr Nat.lt_succ_iff

end Reply

namespace Channel

variable {α : Type} [Duration α]

/-- The clock has not gone back, so without an interval there is nothing to wait for. -/
def NotBefore (earlier later : α) : Prop :=
  ¬ Duration.ofNat 0 < Duration.ofNat 0 - (later - earlier)

section

variable (c : Channel α) (script : Nat → Attempt α)

def lastMade : Nat → α
  | 0 => c.lastRequest
  | n + 1 => (script n).made

/-- The breaker after so many attempts that it has let in. -/
def breakerAfter : Nat → Breaker α
  | 0 => c.breaker
  | n + 1 =>
    ((breakerAfter n).enter (script n).made).1.exit (script n).answered
      (!(script n).reply.isFailure)

def admission (n : Nat) : Breaker α × Option Rejection :=
  (c.breakerAfter script n).enter (script n).made

/-- So many attempts were let in, and each of them asks for another one. -/
def Retries (n : Nat) : Prop :=
  n ≤ maxRetries ∧ ∀ i < n, (c.admission script i).2 = none ∧ (script i).reply.isTransient = true

def pauses (n : Nat) : List α := (List.range n).map fun i => (script i).reply.pause i

end

/-! ## One attempt -/

inductive IsNext : Progress α → Nat → Prop
  | starting : IsNext .starting 0
  | retrying (delay : α) (n : Nat) : IsNext (.sleeping delay (.retrying n)) n

theorem advance_of_isNext {p : Progress α} {n : Nat} (h : IsNext p n) (c : Channel α) (now : α)
    (call : Call) : c.advance now call none p = c.begin now call.wire n := by
  cases h <;> rfl

theorem begin_of_notBefore {c : Channel α} {now : α} (hinterval : c.interval = Duration.ofNat 0)
    (hclock : NotBefore c.lastRequest now) (wire : Except Crash Wire) (attempt : Nat) :
    c.begin now wire attempt = c.send now wire attempt := by
  have hwait : c.wait? now = none := by
    rw [wait?, hinterval]
    exact if_neg hclock
  rw [begin, hwait]

/-- A reply that asks for another attempt gets it while there are attempts left. -/
theorem verdict_of_transient {reply : Reply α} (h : reply.isTransient = true) (expectJson : Bool)
    (attempt : Nat) : verdict expectJson attempt reply =
      if attempt < maxRetries then .sleeping (reply.pause attempt) (.retrying (attempt + 1))
      else .finished (reply.conclusion expectJson attempt) := by
  have hagain : ∀ delay (refusal : Refusal α), again attempt delay refusal =
      if attempt < maxRetries then .sleeping delay (.retrying (attempt + 1))
      else .finished (.error refusal) := by
    intro delay refusal
    unfold again
    by_cases hlast : maxRetries ≤ attempt
    · rw [if_pos hlast, if_neg (Nat.not_lt.mpr hlast)]
    · rw [if_neg hlast, if_pos (Nat.not_le.mp hlast)]
  cases reply with
  | failed message => exact hagain _ _
  | answered a =>
    have h429 : a.status = 429 := by simpa [Reply.isTransient] using h
    rw [verdict, if_pos h429, hagain, Reply.conclusion, if_pos h429]
    rfl

theorem verdict_of_decided {reply : Reply α} (h : reply.isTransient = false) (expectJson : Bool)
    (attempt : Nat) :
    verdict expectJson attempt reply = .finished (reply.conclusion expectJson attempt) := by
  cases reply with
  | failed message => cases h
  | answered a =>
    have h429 : a.status ≠ 429 := by simpa [Reply.isTransient] using h
    rw [verdict, if_neg h429, Reply.conclusion, if_neg h429]
    by_cases hsuccess : a.isSuccess = true
    · rw [if_pos hsuccess, if_pos hsuccess]
    · rw [if_neg hsuccess, if_neg hsuccess]
      by_cases hunavailable : 500 ≤ a.status
      · rw [if_pos hunavailable, if_pos hunavailable]
      · rw [if_neg hunavailable, if_neg hunavailable]

end Channel

namespace Trace

variable {α : Type} [Duration α] {t : Trace α} {call : Channel.Call} {n : Nat}

theorem attempt_of_ended (h : t.progress.hasEnded = true) (call : Channel.Call) (a : Attempt α) :
    t.attempt call a = t := by
  obtain ⟨c, p, sent, slept⟩ := t
  cases p with
  | finished outcome => rfl
  | starting | sleeping | awaiting => cases h

section

variable (hnext : Channel.IsNext t.progress n) (hinterval : t.channel.interval = Duration.ofNat 0)
  {a : Attempt α} (hclock : Channel.NotBefore t.channel.lastRequest a.made) {b : Breaker α}

include hnext hinterval hclock

theorem attempt_of_rejected {why : Rejection}
    (henter : t.channel.breaker.enter a.made = (b, some why)) :
    t.attempt call a = ⟨⟨t.channel.interval, a.made, b⟩,
      .finished (.error (.rejected why (b.retryAfter why))), t.sent, t.slept⟩ := by
  have hmade : t.turn call a.made none = ⟨⟨t.channel.interval, a.made, b⟩,
      .finished (.error (.rejected why (b.retryAfter why))), t.sent, t.slept⟩ := by
    rw [turn, Channel.advance_of_isNext hnext, Channel.begin_of_notBefore hinterval hclock,
      Channel.send, henter]
    rfl
  rw [attempt, hmade]
  rfl

variable {w : Wire} (hwire : call.wire = .ok w)
  (henter : t.channel.breaker.enter a.made = (b, none))

include hwire henter

theorem attempt_of_admitted :
    t.attempt call a = (⟨⟨t.channel.interval, a.made, b⟩, .awaiting w n, t.sent ++ [w], t.slept⟩ :
      Trace α).turn call a.answered (some a.reply) := by
  have hmade : t.turn call a.made none =
      ⟨⟨t.channel.interval, a.made, b⟩, .awaiting w n, t.sent ++ [w], t.slept⟩ := by
    rw [turn, Channel.advance_of_isNext hnext, Channel.begin_of_notBefore hinterval hclock,
      Channel.send, henter, hwire]
    rfl
  rw [attempt, hmade]

theorem attempt_goes_on (htransient : a.reply.isTransient = true) (hfew : n < Channel.maxRetries) :
    t.attempt call a = ⟨⟨t.channel.interval, a.made, b.exit a.answered (!a.reply.isFailure)⟩,
      .sleeping (a.reply.pause n) (.retrying (n + 1)), t.sent ++ [w],
      t.slept ++ [a.reply.pause n]⟩ := by
  rw [attempt_of_admitted hnext hinterval hclock hwire henter, turn, Channel.advance,
    Channel.receive, Channel.verdict_of_transient htransient, if_pos hfew, Reply.isHealthy_eq]
  rfl

theorem attempt_concludes (hlast : a.reply.isTransient = true → n = Channel.maxRetries) :
    t.attempt call a = ⟨⟨t.channel.interval, a.made, b.exit a.answered (!a.reply.isFailure)⟩,
      .finished (a.reply.conclusion call.expectJson n), t.sent ++ [w], t.slept⟩ := by
  have hverdict : Channel.verdict call.expectJson n a.reply =
      .finished (a.reply.conclusion call.expectJson n) := by
    by_cases htransient : a.reply.isTransient = true
    · rw [Channel.verdict_of_transient htransient, hlast htransient, if_neg (Nat.lt_irrefl _)]
    · exact Channel.verdict_of_decided (Bool.eq_false_iff.mpr htransient) _ _
  rw [attempt_of_admitted hnext hinterval hclock hwire henter, turn, Channel.advance,
    Channel.receive, hverdict, Reply.isHealthy_eq]
  rfl

end

/-! ## All attempts -/

variable (c : Channel α) (call : Channel.Call) (w : Wire) (script : Nat → Attempt α)

/-- What a call has done that is about to make attempt `n`. -/
def Goes (n : Nat) (t : Trace α) : Prop :=
  c.Retries script n ∧ ∃ p, Channel.IsNext p n ∧
    t = ⟨⟨c.interval, c.lastMade script n, c.breakerAfter script n⟩, p, List.replicate n w,
      Channel.pauses script n⟩

/-- What a call has done that attempt `n` has ended. -/
def Ends (n : Nat) (t : Trace α) : Prop :=
  c.Retries script n ∧
    ((∃ why, (c.admission script n).2 = some why ∧
      t = ⟨⟨c.interval, (script n).made, (c.admission script n).1⟩,
        .finished (.error (.rejected why ((c.admission script n).1.retryAfter why))),
        List.replicate n w, Channel.pauses script n⟩) ∨
    (c.admission script n).2 = none ∧
      ((script n).reply.isTransient = true → n = Channel.maxRetries) ∧
      t = ⟨⟨c.interval, (script n).made, c.breakerAfter script (n + 1)⟩,
        .finished ((script n).reply.conclusion call.expectJson n), List.replicate (n + 1) w,
        Channel.pauses script n⟩)

variable {c call w script}

theorem goes_run_zero : Goes c w script 0 (run c call script 0) :=
  ⟨⟨Nat.zero_le _, nofun⟩, .starting, .starting, rfl⟩

theorem Ends.attempt_eq (h : Ends c call w script n t) (a : Attempt α) : t.attempt call a = t := by
  apply attempt_of_ended
  obtain ⟨-, ⟨why, -, rfl⟩ | ⟨-, -, rfl⟩⟩ := h <;> rfl

theorem Goes.attempt (h : Goes c w script n t) (hinterval : c.interval = Duration.ofNat 0)
    (hclock : Channel.NotBefore (c.lastMade script n) (script n).made) (hwire : call.wire = .ok w) :
    Goes c w script (n + 1) (t.attempt call (script n)) ∨
      Ends c call w script n (t.attempt call (script n)) := by
  obtain ⟨hretries, p, hnext, rfl⟩ := h
  cases hadmission : (c.admission script n).2 with
  | some why =>
    refine .inr ⟨hretries, .inl ⟨why, hadmission, ?_⟩⟩
    exact attempt_of_rejected hnext hinterval hclock (Prod.ext rfl hadmission)
  | none =>
    have henter : (c.breakerAfter script n).enter (script n).made =
        ((c.admission script n).1, none) := Prod.ext rfl hadmission
    by_cases hmore : (script n).reply.isTransient = true ∧ n < Channel.maxRetries
    · obtain ⟨htransient, hfew⟩ := hmore
      refine .inl ⟨⟨hfew, ?_⟩, _, .retrying ((script n).reply.pause n) (n + 1), ?_⟩
      · intro i hi
        obtain hi | rfl := Nat.lt_succ_iff_lt_or_eq.mp hi
        · exact hretries.2 i hi
        · exact ⟨hadmission, htransient⟩
      · rw [attempt_goes_on hnext hinterval hclock hwire henter htransient hfew,
          ← List.replicate_succ', Channel.pauses, Channel.pauses, List.range_succ, List.map_append]
        rfl
    · have hlast : (script n).reply.isTransient = true → n = Channel.maxRetries := by
        intro htransient
        exact Nat.le_antisymm hretries.1 (Nat.not_lt.mp fun hfew => hmore ⟨htransient, hfew⟩)
      refine .inr ⟨hretries, .inr ⟨hadmission, hlast, ?_⟩⟩
      rw [attempt_concludes hnext hinterval hclock hwire henter hlast, ← List.replicate_succ']
      rfl

/-- After `m` attempts a call has made all of them, or has ended. -/
theorem goes_or_ends (hinterval : c.interval = Duration.ofNat 0)
    (hclock : ∀ n, Channel.NotBefore (c.lastMade script n) (script n).made)
    (hwire : call.wire = .ok w) (m : Nat) :
    Goes c w script m (run c call script m) ∨
      ∃ n, Ends c call w script n (run c call script m) := by
  induction m with
  | zero => exact .inl goes_run_zero
  | succ m ih =>
    obtain hgoes | ⟨n, hends⟩ := ih
    · obtain hgoes | hends := hgoes.attempt hinterval (hclock m) hwire
      · exact .inl hgoes
      · exact .inr ⟨m, hends⟩
    · refine .inr ⟨n, ?_⟩
      rw [run, hends.attempt_eq]
      exact hends

theorem ends_run (hinterval : c.interval = Duration.ofNat 0)
    (hclock : ∀ n, Channel.NotBefore (c.lastMade script n) (script n).made)
    (hwire : call.wire = .ok w) {m : Nat} (hm : Channel.maxRetries < m) :
    ∃ n, Ends c call w script n (run c call script m) := by
  obtain ⟨⟨hfew, -⟩, -⟩ | hends := goes_or_ends hinterval hclock hwire m
  · exact absurd hfew (Nat.not_le.mpr hm)
  · exact hends

end Trace

end FieldSearch.Transport
