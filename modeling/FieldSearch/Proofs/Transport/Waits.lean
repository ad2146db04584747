import FieldSearch.Proofs.Number.Spelling
import FieldSearch.Proofs.Transport.Promises

/-!
# Waits between attempts

A call that is refused for its rate waits as long as the answer says in a number, and otherwise
twice as long after each attempt. Any number counts as said. So a wait can be negative, endless or
no time at all, but only if the header spells a number that is below zero, too large, or undefined.
-/

namespace FieldSearch.Transport

open Binary64 (IsSane)

namespace Progress

variable {α : Type}

/-- The time that a call sleeps before it tries again, or that it tells of when it gives up. -/
def wait? : Progress α → Option α
  | sleeping delay (.retrying _) => some delay
  | finished (.error (.rateLimited delay)) => some delay
  | starting | sleeping _ (.sending _) | awaiting .. | finished _ => none

def InTime : Progress α → Prop
  | sleeping _ (.retrying attempt) | sleeping _ (.sending attempt) | awaiting _ attempt =>
    attempt ≤ 3
  | starting | finished _ => True

end Progress

/-! ## How long to wait -/

theorem isSane_backoff : ∀ {attempt}, attempt ≤ 3 → IsSane (Channel.backoff attempt)
  | 0, _ | 1, _ | 2, _ | 3, _ => by decide +kernel

/-- What an answer says about the time to wait, if it says anything. -/
def SaysModerate (headers : Entries Text) : Prop :=
  ∀ text, Answer.header? "retry-after" headers = some text → Number.IsModerate text

theorem isSane_pause_iff {attempt : Nat} (hattempt : attempt ≤ 3) (status : Nat)
    (reason : Option Text) (headers : Entries Text) (body text : Text) :
    IsSane ((Delivery.answered status reason headers body text).reply.pause attempt) ↔
      SaysModerate headers := by
  have hbackoff := isSane_backoff hattempt
  show IsSane (((Answer.header? "retry-after" headers).bind Number.readFloat).getD
    (Channel.backoff attempt)) ↔ _
  unfold SaysModerate
  cases Answer.header? "retry-after" headers with
  | none => simpa using hbackoff
  | some text =>
    simp only [Option.bind_some, Option.some.injEq, forall_eq', ← Number.isSane_readFloat_iff]
    cases Number.readFloat text with
    | none => simpa using hbackoff
    | some x => simp

namespace Channel

/-! ## Where a call can come -/

/-- Where a call may have come. Other calls can do anything to the channel between its turns. -/
inductive Reached (call : Call) : Progress Float → Prop
  | starting : Reached call .starting
  | turn {p : Progress Float} (c : Channel Float) (now : Float) (d : Delivery) : Reached call p →
      Reached call (c.advance now call (some d.reply) p).2

section

variable {α : Type} [Duration α]

theorem send_inTime (c : Channel α) (now : α) (wire : Except Crash Wire) {attempt : Nat}
    (h : attempt ≤ 3) :
    (c.send now wire attempt).2.InTime ∧ (c.send now wire attempt).2.wait? = none := by
  obtain ⟨-, why, after, hsend⟩ | ⟨-, ⟨w, -, hsend⟩ | ⟨crash, -, hsend⟩⟩ :=
    send_cases c now wire attempt
  all_goals rw [hsend]
  · exact ⟨trivial, rfl⟩
  · exact ⟨h, rfl⟩
  · exact ⟨trivial, rfl⟩

theorem begin_inTime (c : Channel α) (now : α) (wire : Except Crash Wire) {attempt : Nat}
    (h : attempt ≤ 3) :
    (c.begin now wire attempt).2.InTime ∧ (c.begin now wire attempt).2.wait? = none := by
  obtain ⟨wait, -, hbegin⟩ | ⟨-, hbegin⟩ := begin_cases c now wire attempt
  · rw [hbegin]
    exact ⟨h, rfl⟩
  · rw [hbegin]
    exact send_inTime c now wire h

theorem wait?_conclusion {expectJson : Bool} {attempt : Nat} {reply : Reply α} {delay : α}
    (h : (Progress.finished (reply.conclusion expectJson attempt)).wait? = some delay) :
    reply.isTransient = true ∧ reply.pause attempt = delay := by
  cases reply with
  | failed message => cases h
  | answered a =>
    by_cases h429 : a.status = 429
    · rw [Reply.conclusion_of_limited expectJson attempt h429] at h
      exact ⟨decide_eq_true h429, Option.some.inj h⟩
    · rw [Reply.conclusion, if_neg h429] at h
      split at h
      · unfold bodyOutcome at h
        cases hbody : a.read expectJson with
        | ok value =>
          rw [hbody] at h
          cases h
        | error fault =>
          rw [hbody] at h
          cases fault <;> cases h
      · split at h <;> cases h

theorem verdict_inTime (expectJson : Bool) (attempt : Nat) (reply : Reply α) :
    (verdict expectJson attempt reply).InTime ∧
      ∀ delay, (verdict expectJson attempt reply).wait? = some delay →
        reply.isTransient = true ∧ reply.pause attempt = delay := by
  by_cases htransient : reply.isTransient = true
  · rw [verdict_of_transient htransient]
    split
    · rename_i hfew
      exact ⟨hfew, fun delay h => ⟨htransient, Option.some.inj h⟩⟩
    · exact ⟨trivial, fun delay => wait?_conclusion⟩
  · rw [verdict_of_decided (Bool.eq_false_iff.mpr htransient)]
    exact ⟨trivial, fun delay => wait?_conclusion⟩

end

section

variable {call : Call} {p : Progress Float}

theorem Reached.inTime (h : Reached call p) : p.InTime := by
  induction h with
  | starting => trivial
  | @turn p c now d hp ih =>
    cases p with
    | starting => exact (begin_inTime c now call.wire (Nat.zero_le 3)).1
    | sleeping delay next =>
      cases next with
      | sending attempt => exact (send_inTime c now call.wire ih).1
      | retrying attempt => exact (begin_inTime c now call.wire ih).1
    | awaiting wire attempt => exact (verdict_inTime call.expectJson attempt d.reply).1
    | finished => trivial

theorem Reached.exists_of_wait? (h : Reached call p) {delay : Float}
    (hwait : p.wait? = some delay) :
    ∃ attempt, ∃ d : Delivery, attempt ≤ 3 ∧ d.reply.isTransient = true ∧
      d.reply.pause attempt = delay := by
  induction h with
  | starting => cases hwait
  | @turn p c now d hp ih =>
    have hin := hp.inTime
    -- only the reply to an attempt decides a wait; a turn that sends, or is held back, has none
    cases p with
    | starting =>
      cases (begin_inTime c now call.wire (Nat.zero_le 3)).2.symm.trans hwait
    | sleeping delay next =>
      cases next with
      | sending attempt => cases (send_inTime c now call.wire hin).2.symm.trans hwait
      | retrying attempt => cases (begin_inTime c now call.wire hin).2.symm.trans hwait
    | awaiting wire attempt =>
      exact ⟨attempt, d, hin, (verdict_inTime call.expectJson attempt d.reply).2 delay hwait⟩
    | finished => exact ih hwait

end

/-- **A wait is sane exactly if the answer that asks for it is.** A call makes four attempts at
most. After an answer that refuses it for its rate it sleeps, or gives up after the fourth one, and
its wait is a finite number that is not below zero exactly if the header is absent, spells no
number, or spells one that is neither too large nor below zero. Every wait that is not sane comes
from such a header. -/
theorem waits_sane_iff (call : Call) :
    (∀ wire attempt, Reached call (.awaiting wire attempt) → attempt ≤ 3 ∧
      ∀ (c : Channel Float) now reason headers body text,
        let reply := (Delivery.answered 429 reason headers body text).reply
        (c.advance now call (some reply) (.awaiting wire attempt)).2 =
          (if attempt < 3 then .sleeping (reply.pause attempt) (.retrying (attempt + 1))
            else .finished (.error (.rateLimited (reply.pause attempt)))) ∧
        (IsSane (reply.pause attempt) ↔ SaysModerate headers)) ∧
    ∀ p delay, Reached call p → p.wait? = some delay → IsSane delay ∨
      ∃ attempt reason headers body text, attempt ≤ 3 ∧ ¬ SaysModerate headers ∧
        (Delivery.answered 429 reason headers body text).reply.pause attempt = delay := by
  constructor
  · intro wire attempt hreached
    have hattempt : attempt ≤ 3 := hreached.inTime
    refine ⟨hattempt, ?_⟩
    intro c now reason headers body text reply
    have htransient : reply.isTransient = true := rfl
    refine ⟨?_, isSane_pause_iff hattempt 429 reason headers body text⟩
    exact verdict_of_transient htransient call.expectJson attempt
  · intro p delay hreached hwait
    obtain ⟨attempt, d, hattempt, htransient, rfl⟩ := hreached.exists_of_wait? hwait
    cases d with
    | failed message => exact .inl (isSane_backoff hattempt)
    | answered status reason headers body text =>
      obtain rfl : status = 429 := of_decide_eq_true htransient
      by_cases hmoderate : SaysModerate headers
      · exact .inl ((isSane_pause_iff hattempt 429 reason headers body text).mpr hmoderate)
      · exact .inr ⟨attempt, reason, headers, body, text, hattempt, hmoderate, rfl⟩

section

theorem reached_awaiting : Reached jsonCall (.awaiting ⟨"https://api.test/a", []⟩ 0) := by
  have hclock : NotBefore unhurried.lastRequest 1000 := by decide +kernel
  have hsend : (unhurried.begin 1000 jsonCall.wire 0).2 =
      .awaiting ⟨"https://api.test/a", []⟩ 0 := by
    rw [begin_of_notBefore rfl hclock]
    exact congrArg Prod.snd (send_of_closed rfl 1000 _ 0)
  have hturn := Reached.turn unhurried 1000 (.failed []) (.starting : Reached jsonCall .starting)
  rwa [advance, hsend] at hturn

theorem saysModerate_seven : SaysModerate [("Retry-After", "7")] := by
  intro text htext
  cases htext
  apply Number.isSane_readFloat_iff.mp
  intro x hx
  have hseven : Number.readFloat "7" = some 7 := by decide +kernel
  obtain rfl : 7 = x := Option.some.inj (hseven.symm.trans hx)
  decide +kernel

theorem waits_sane_seven :
    let reply := (Delivery.answered 429 none [("Retry-After", "7")] [] []).reply
    (unhurried.advance 1000 jsonCall (some reply) (.awaiting ⟨"https://api.test/a", []⟩ 0)).2 =
        .sleeping (reply.pause 0) (.retrying 1) ∧
      IsSane (reply.pause 0) := by
  obtain ⟨-, hwaits⟩ := (waits_sane_iff jsonCall).1 _ 0 reached_awaiting
  obtain ⟨hturn, hsane⟩ := hwaits unhurried 1000 none [("Retry-After", "7")] [] []
  exact ⟨hturn, hsane.mpr saysModerate_seven⟩

/-- A header that spells infinity is taken at its word. -/
theorem endless_wait_reached :
    (∃ p delay, Reached jsonCall p ∧ p.wait? = some delay ∧ ¬ IsSane delay) ∧
      ¬ ∀ call p delay, Reached call p → p.wait? = some delay → IsSane delay := by
  have hturn := Reached.turn unhurried 1000
    (.answered 429 none [("Retry-After", "inf")] [] []) reached_awaiting
  have hinsane : ¬ IsSane (Reply.pause 0
      (Delivery.answered 429 none [("Retry-After", "inf")] [] []).reply) := by
    decide +kernel
  have hexists : ∃ p delay, Reached jsonCall p ∧ p.wait? = some delay ∧ ¬ IsSane delay :=
    ⟨_, _, hturn, rfl, hinsane⟩
  refine ⟨hexists, ?_⟩
  intro hall
  obtain ⟨p, delay, hreached, hwait, hnot⟩ := hexists
  exact hnot (hall jsonCall p delay hreached hwait)

end

end Channel

end FieldSearch.Transport
