import FieldSearch.Transport.Channel

/-!
# Attempts of a call

What one turn of a call can do. A call that is due tries to send its request: the breaker may
reject it, and a request that cannot be written crashes. A call that awaits a reply ends with it or
sleeps before the next attempt. Four attempts of three turns each are all that a call has.
-/

namespace FieldSearch.Transport

theorem Answer.read_json {α : Type} (a : Answer α) : a.read true = jsonBody a.body := if_pos rfl

namespace Progress

variable {α : Type}

def hasEnded : Progress α → Bool
  | finished _ => true
  | starting | sleeping .. | awaiting .. => false

/-- Between its first turn and its end. -/
def isRunning : Progress α → Bool
  | sleeping .. | awaiting .. => true
  | starting | finished _ => false

/-- How many turns a call has left at most. -/
def left : Progress α → Nat
  | starting => 12
  | sleeping _ (.retrying attempt) => 3 * (3 - attempt) + 3
  | sleeping _ (.sending attempt) => 3 * (3 - attempt) + 2
  | awaiting _ attempt => 3 * (3 - attempt) + 1
  | finished _ => 0

theorem left_pos {p : Progress α} (h : p.hasEnded = false) : 0 < p.left := by
  cases p with
  | starting => exact Nat.zero_lt_succ _
  | sleeping _ next => cases next <;> exact Nat.zero_lt_succ _
  | awaiting => exact Nat.zero_lt_succ _
  | finished => cases h

theorem left_le (p : Progress α) : p.left ≤ 12 := by
  cases p with
  | sleeping _ next => cases next <;> simp only [left] <;> omega
  | awaiting _ attempt => simp only [left]; omega
  | _ => simp [left]

theorem hasEnded_of_isRunning {p : Progress α} (h : p.isRunning = true) : p.hasEnded = false := by
  cases p with
  | sleeping | awaiting => rfl
  | starting | finished => cases h

end Progress

namespace Channel

variable {α : Type} {crash : Crash}

/-! ## Trying again and reading bodies -/

theorem again_left (attempt : Nat) (delay : α) (refusal : Refusal α) :
    (again attempt delay refusal).left ≤ 3 * (3 - attempt) := by
  unfold again maxRetries
  split
  · exact Nat.zero_le _
  · simp only [Progress.left]
    omega

theorem again_ne_ok (attempt : Nat) (delay : α) (refusal : Refusal α) (value : Json) :
    again attempt delay refusal ≠ .finished (.ok value) := by
  unfold again
  split <;> nofun

theorem again_ne_crash (attempt : Nat) (delay : α) {refusal : Refusal α}
    (h : ∀ crash, refusal ≠ .crash crash) (crash : Crash) :
    again attempt delay refusal ≠ .finished (.error (.crash crash)) := by
  unfold again
  split
  · simpa using h crash
  · nofun

theorem bodyOutcome_eq_ok {expectJson : Bool} {a : Answer α} {value : Json} :
    bodyOutcome expectJson a = .ok value ↔ a.read expectJson = .ok value := by
  unfold bodyOutcome
  cases a.read expectJson with
  | ok v => simp
  | error f => cases f <;> simp

variable [Duration α] {c : Channel α} {now : α} {call : Call} {reply : Reply α} {p : Progress α}

/-- The breaker lets a request in. -/
def Admits (c : Channel α) (now : α) : Prop := (c.breaker.enter now).2 = none

/-- A call that has come this far tries to send a request now. -/
def IsDue (c : Channel α) (now : α) : Progress α → Prop
  | .starting | .sleeping _ (.retrying _) => c.wait? now = none
  | .sleeping _ (.sending _) => True
  | .awaiting .. | .finished _ => False

/-- The request of this turn cannot be written, or its reply cannot be read. -/
inductive Crashes (c : Channel α) (now : α) (call : Call) (reply : Reply α) :
    Progress α → Crash → Prop
  | unwritable {p : Progress α} {crash : Crash} : c.IsDue now p → c.Admits now →
      call.wire = .error crash → Crashes c now call reply p crash
  | unreadable {wire : Wire} {attempt : Nat} {a : Answer α} {crash : Crash} :
      reply = .answered a → a.isSuccess = true →
      a.read call.expectJson = .error (.crash crash) →
      Crashes c now call reply (.awaiting wire attempt) crash

/-! ## Sending -/

theorem send_cases (c : Channel α) (now : α) (wire : Except Crash Wire) (attempt : Nat) :
    (¬ c.Admits now ∧ ∃ why after,
      (c.send now wire attempt).2 = .finished (.error (.rejected why after))) ∨
    c.Admits now ∧
      ((∃ w, wire = .ok w ∧ (c.send now wire attempt).2 = .awaiting w attempt) ∨
        ∃ crash, wire = .error crash ∧
          (c.send now wire attempt).2 = .finished (.error (.crash crash))) := by
  unfold send Admits
  obtain ⟨breaker, rejection⟩ := c.breaker.enter now
  cases rejection with
  | some why => exact .inl ⟨nofun, why, _, rfl⟩
  | none =>
    refine .inr ⟨rfl, ?_⟩
    cases wire with
    | ok w => exact .inl ⟨w, rfl, rfl⟩
    | error crash => exact .inr ⟨crash, rfl, rfl⟩

theorem send_of_closed {c : Channel α} (h : c.breaker.state = .closed) (now : α) (w : Wire)
    (attempt : Nat) :
    c.send now (.ok w) attempt = ({ c with lastRequest := now }, .awaiting w attempt) := by
  simp [send, Breaker.enter, h]

theorem begin_cases (c : Channel α) (now : α) (wire : Except Crash Wire) (attempt : Nat) :
    (∃ wait, c.wait? now = some wait ∧
      c.begin now wire attempt = (c, .sleeping wait (.sending attempt))) ∨
    c.wait? now = none ∧ c.begin now wire attempt = c.send now wire attempt := by
  unfold begin
  cases c.wait? now with
  | some wait => exact .inl ⟨wait, rfl, rfl⟩
  | none => exact .inr ⟨rfl, rfl⟩

/-- A turn takes a reply, waits for the interval, or sends. -/
theorem advance_cases (c : Channel α) (now : α) (call : Call) (reply : Reply α)
    (hrun : p.hasEnded = false) :
    (∃ wire attempt, p = .awaiting wire attempt ∧
      c.advance now call (some reply) p = c.receive now call.expectJson attempt reply) ∨
    (∃ attempt wait, ¬ c.IsDue now p ∧ 3 * (3 - attempt) + 3 ≤ p.left ∧
      c.advance now call (some reply) p = (c, .sleeping wait (.sending attempt))) ∨
    ∃ attempt, c.IsDue now p ∧ 3 * (3 - attempt) + 2 ≤ p.left ∧
      c.advance now call (some reply) p = c.send now call.wire attempt := by
  cases p with
  | starting =>
    obtain ⟨wait, hwait, h⟩ | ⟨hdue, h⟩ := begin_cases c now call.wire 0
    · exact .inr (.inl ⟨0, wait, by simp [IsDue, hwait], Nat.le_refl _, h⟩)
    · exact .inr (.inr ⟨0, hdue, Nat.le_succ _, h⟩)
  | sleeping delay next =>
    cases next with
    | retrying attempt =>
      obtain ⟨wait, hwait, h⟩ | ⟨hdue, h⟩ := begin_cases c now call.wire attempt
      · exact .inr (.inl ⟨attempt, wait, by simp [IsDue, hwait], Nat.le_refl _, h⟩)
      · exact .inr (.inr ⟨attempt, hdue, Nat.le_succ _, h⟩)
    | sending attempt => exact .inr (.inr ⟨attempt, trivial, Nat.le_refl _, rfl⟩)
  | awaiting wire attempt => exact .inl ⟨wire, attempt, rfl, rfl⟩
  | finished => cases hrun

/-! ## Turns that are left -/

theorem send_left (c : Channel α) (now : α) (wire : Except Crash Wire) (attempt : Nat) :
    (c.send now wire attempt).2.left ≤ 3 * (3 - attempt) + 1 := by
  obtain ⟨-, why, after, h⟩ | ⟨-, ⟨w, -, h⟩ | ⟨crash, -, h⟩⟩ := send_cases c now wire attempt
  · rw [h]; exact Nat.zero_le _
  · rw [h]; exact Nat.le_refl _
  · rw [h]; exact Nat.zero_le _

theorem verdict_left (expectJson : Bool) (attempt : Nat) (reply : Reply α) :
    (verdict expectJson attempt reply).left ≤ 3 * (3 - attempt) := by
  unfold verdict
  cases reply with
  | failed message => exact again_left ..
  | answered a =>
    dsimp only
    split
    · exact again_left ..
    · split
      · exact Nat.zero_le _
      · split <;> exact Nat.zero_le _

theorem advance_left (c : Channel α) (now : α) (call : Call) (reply : Reply α)
    (hrun : p.hasEnded = false) :
    (c.advance now call (some reply) p).2.left < p.left := by
  obtain ⟨wire, attempt, rfl, h⟩ | ⟨attempt, wait, -, hleft, h⟩ | ⟨attempt, -, hleft, h⟩ :=
    advance_cases c now call reply hrun
  · rw [h]
    exact Nat.lt_succ_of_le (verdict_left ..)
  · rw [h]
    exact hleft
  · rw [h]
    exact Nat.lt_of_lt_of_le (Nat.lt_succ_of_le (send_left ..)) hleft

/-! ## What is sent -/

theorem verdict_ne_awaiting (expectJson : Bool) (attempt : Nat) (reply : Reply α) (w : Wire)
    (n : Nat) : verdict expectJson attempt reply ≠ .awaiting w n := by
  have hagain : ∀ delay (refusal : Refusal α), again attempt delay refusal ≠ .awaiting w n := by
    intro delay refusal
    unfold again
    split <;> nofun
  unfold verdict
  cases reply with
  | failed message => exact hagain _ _
  | answered a =>
    dsimp only
    split
    · exact hagain _ _
    · split
      · nofun
      · split <;> nofun

/-- What a call awaits a reply to is its own request. -/
theorem wire_of_advance (reply : Reply α) {w : Wire} {n : Nat} (hrun : p.hasEnded = false)
    (h : (c.advance now call (some reply) p).2 = .awaiting w n) : call.wire = .ok w := by
  obtain ⟨wire, attempt, rfl, hadvance⟩ | ⟨attempt, wait, -, -, hadvance⟩ |
    ⟨attempt, -, -, hadvance⟩ := advance_cases c now call reply hrun
  · rw [hadvance] at h
    exact (verdict_ne_awaiting _ _ _ w n h).elim
  · rw [hadvance] at h
    cases h
  · rw [hadvance] at h
    obtain ⟨-, why, after, hsend⟩ | ⟨-, ⟨w', hw', hsend⟩ | ⟨crash, -, hsend⟩⟩ :=
      send_cases c now call.wire attempt
    · rw [hsend] at h
      cases h
    · rw [hsend] at h
      cases h
      exact hw'
    · rw [hsend] at h
      cases h

/-! ## How a call ends -/

theorem verdict_of_success {a : Answer α} (h : a.isSuccess = true) (expectJson : Bool)
    (attempt : Nat) :
    verdict expectJson attempt (.answered a) = .finished (bodyOutcome expectJson a) := by
  have hstatus : a.status ≠ 429 := by
    simp only [Answer.isSuccess, Bool.and_eq_true, decide_eq_true_eq] at h
    omega
  simp [verdict, hstatus, h]

theorem receive_of_success {a : Answer α} (h : a.isSuccess = true) (c : Channel α) (now : α)
    (expectJson : Bool) (attempt : Nat) :
    c.receive now expectJson attempt (.answered a) =
      ({ c with breaker := c.breaker.succeed }, .finished (bodyOutcome expectJson a)) := by
  have hhealthy : isHealthy (.answered a) = true := by
    simp only [Answer.isSuccess, Bool.and_eq_true, decide_eq_true_eq] at h
    simp only [isHealthy, Answer.isServerError, Bool.not_eq_true', Bool.and_eq_false_iff,
      decide_eq_false_iff_not]
    omega
  rw [receive, verdict_of_success h, hhealthy]
  rfl

/-- Only a success has its body read. -/
theorem isSuccess_of_verdict {expectJson : Bool} {attempt : Nat} {outcome : Outcome α}
    (h : verdict expectJson attempt reply = .finished outcome)
    (hread : (∃ value, outcome = .ok value) ∨ ∃ crash, outcome = .error (.crash crash)) :
    ∃ a, reply = .answered a ∧ a.isSuccess = true ∧ outcome = bodyOutcome expectJson a := by
  have hagain : ∀ delay (refusal : Refusal α), (∀ crash, refusal ≠ .crash crash) →
      again attempt delay refusal ≠ .finished outcome := by
    intro delay refusal hrefusal
    obtain ⟨value, rfl⟩ | ⟨crash, rfl⟩ := hread
    · exact again_ne_ok attempt delay refusal value
    · exact again_ne_crash attempt delay hrefusal crash
  unfold verdict at h
  split at h
  · exact absurd h (hagain _ _ nofun)
  · rename_i a
    dsimp only at h
    split at h
    · exact absurd h (hagain _ _ nofun)
    · split at h
      · rename_i hsuccess
        exact ⟨a, rfl, hsuccess, by injection h with h; exact h.symm⟩
      · obtain ⟨value, rfl⟩ | ⟨crash, rfl⟩ := hread <;> split at h <;> simp at h

/-- A call ends well exactly with the body of a success. -/
theorem advance_eq_ok (c : Channel α) (now : α) (call : Call) (reply : Reply α)
    (hrun : p.hasEnded = false) {value : Json} :
    (c.advance now call (some reply) p).2 = .finished (.ok value) ↔
      ∃ wire attempt a, p = .awaiting wire attempt ∧ reply = .answered a ∧ a.isSuccess = true ∧
        a.read call.expectJson = .ok value := by
  constructor
  · intro h
    obtain ⟨wire, attempt, rfl, hadvance⟩ | ⟨attempt, wait, -, -, hadvance⟩ |
      ⟨attempt, -, -, hadvance⟩ :=
      advance_cases c now call reply hrun
    · rw [hadvance] at h
      obtain ⟨a, hreply, hsuccess, hbody⟩ := isSuccess_of_verdict h (.inl ⟨value, rfl⟩)
      exact ⟨wire, attempt, a, rfl, hreply, hsuccess, bodyOutcome_eq_ok.mp hbody.symm⟩
    · rw [hadvance] at h
      cases h
    · rw [hadvance] at h
      obtain ⟨-, why, after, hsend⟩ | ⟨-, ⟨w, -, hsend⟩ | ⟨crash, -, hsend⟩⟩ :=
        send_cases c now call.wire attempt
      all_goals
        rw [hsend] at h
        cases h
  · rintro ⟨wire, attempt, a, rfl, rfl, hsuccess, hbody⟩
    exact (verdict_of_success hsuccess _ _).trans
      (congrArg Progress.finished (bodyOutcome_eq_ok.mpr hbody))

end Channel

end FieldSearch.Transport
