import FieldSearch.Proofs.Transport.Attempts
import Mathlib.Algebra.Order.Ring.Rat
import Mathlib.Tactic.Linarith

/-!
# Pacing of requests

Calls share a channel and take turns at times that never go back; a call that sleeps has no turn
before its sleep is over. A call that comes too early for the interval sleeps until the request it
has seen is old enough, and then sends its own without looking again. So requests keep the interval
as long as no call is overtaken in its sleep, and any number of calls that sleep side by side send
their requests at one moment.
-/

namespace FieldSearch.Transport

namespace Progress

variable {α : Type}

def isAwaiting : Progress α → Bool
  | awaiting .. => true
  | starting | sleeping .. | finished _ => false

/-- Asleep until the interval is over. -/
def isHeldBack : Progress α → Bool
  | sleeping _ (.sending _) => true
  | sleeping _ (.retrying _) | starting | awaiting .. | finished _ => false

/-- The earliest time for the next turn of a call that has come this far now. -/
def due [Duration α] (now : α) : Progress α → α
  | sleeping delay _ => now + delay
  | starting | awaiting .. | finished _ => now

end Progress

namespace Channel

/-! ## Calls that share a channel -/

/-- A call under way: when its next turn is due, and the last attempt on the channel that it has
seen. -/
structure Caller (α : Type) where
  call : Call
  progress : Progress α
  due : α
  seen : α

structure Traffic (α : Type) where
  channel : Channel α
  now : α
  callers : List (Caller α)

/-- One turn: the caller that has it, the time, and the reply it takes if it waits for one. -/
structure Turn (α : Type) where
  id : Nat
  now : α
  reply : Reply α

variable {α : Type} [Duration α]

def Caller.turn (caller : Caller α) (c : Channel α) (now : α) (reply : Reply α) :
    Channel α × Caller α :=
  let (c, p) := c.advance now caller.call (some reply) caller.progress
  (c, { caller with progress := p, due := p.due now, seen := c.lastRequest })

namespace Traffic

def ofCalls (c : Channel α) (start : α) (calls : List Call) : Traffic α :=
  ⟨c, start, calls.map fun call => ⟨call, .starting, start, c.lastRequest⟩⟩

/-- What a turn leads to, if its time has come and its call has not ended. -/
def turn? (t : Traffic α) (turn : Turn α) : Option (Channel α × Caller α) :=
  match t.callers[turn.id]? with
  | none => none
  | some caller =>
    if caller.progress.hasEnded = false ∧ t.now ≤ turn.now ∧ caller.due ≤ turn.now then
      some (caller.turn t.channel turn.now turn.reply)
    else none

def step (t : Traffic α) (turn : Turn α) : Traffic α :=
  match t.turn? turn with
  | none => t
  | some (c, caller) => ⟨c, turn.now, t.callers.set turn.id caller⟩

def sends (t : Traffic α) (turn : Turn α) : List α :=
  match t.turn? turn with
  | none => []
  | some (_, caller) => if caller.progress.isAwaiting then [turn.now] else []

def requests (t : Traffic α) : List (Turn α) → List α
  | [] => []
  | turn :: turns => t.sends turn ++ (t.step turn).requests turns

/-- A call wakes up to send its request, and another attempt has been made while it slept. -/
def Overtakes (t : Traffic α) (turn : Turn α) : Prop :=
  ∃ caller ∈ t.callers[turn.id]?, caller.progress.isHeldBack = true ∧
    (t.turn? turn).isSome = true ∧ caller.seen ≠ t.channel.lastRequest

def Undisturbed (t : Traffic α) : List (Turn α) → Prop
  | [] => True
  | turn :: turns => ¬ t.Overtakes turn ∧ (t.step turn).Undisturbed turns

instance (t : Traffic Rat) (turn : Turn Rat) : Decidable (t.Overtakes turn) :=
  inferInstanceAs (Decidable (∃ caller ∈ t.callers[turn.id]?, _ ∧ _ ∧ _))

instance decidableUndisturbed : (t : Traffic Rat) → (turns : List (Turn Rat)) →
    Decidable (t.Undisturbed turns)
  | _, [] => .isTrue trivial
  | t, turn :: turns =>
    have := decidableUndisturbed (t.step turn) turns
    inferInstanceAs (Decidable (¬ t.Overtakes turn ∧ (t.step turn).Undisturbed turns))

end Traffic

/-! ## What a turn does to the channel -/

inductive Does (c : Channel α) (now : α) (p : Progress α) : Channel α × Progress α → Prop
  | receives {c' : Channel α} {p' : Progress α} : c'.interval = c.interval →
      c'.lastRequest = c.lastRequest → p'.isAwaiting = false → p'.isHeldBack = false →
      Does c now p (c', p')
  | holdsBack {wait : α} {attempt : Nat} : c.wait? now = some wait →
      Does c now p (c, .sleeping wait (.sending attempt))
  | attempts {c' : Channel α} {p' : Progress α} : c.IsDue now p → c'.interval = c.interval →
      c'.lastRequest = now → p'.isHeldBack = false → Does c now p (c', p')

theorem verdict_waits (expectJson : Bool) (attempt : Nat) (reply : Reply α) :
    (verdict expectJson attempt reply).isAwaiting = false ∧
      (verdict expectJson attempt reply).isHeldBack = false := by
  have hagain : ∀ delay (refusal : Refusal α), (again attempt delay refusal).isAwaiting = false ∧
      (again attempt delay refusal).isHeldBack = false := by
    intro delay refusal
    unfold again
    split <;> exact ⟨rfl, rfl⟩
  unfold verdict
  cases reply with
  | failed message => exact hagain _ _
  | answered a =>
    dsimp only
    split
    · exact hagain _ _
    · split
      · exact ⟨rfl, rfl⟩
      · split <;> exact ⟨rfl, rfl⟩

theorem send_does {c : Channel α} {now : α} {p : Progress α} (hdue : c.IsDue now p)
    (wire : Except Crash Wire) (attempt : Nat) : Does c now p (c.send now wire attempt) := by
  unfold send
  obtain ⟨breaker, rejection⟩ := c.breaker.enter now
  cases rejection with
  | some why => exact .attempts hdue rfl rfl rfl
  | none => cases wire <;> exact .attempts hdue rfl rfl rfl

theorem begin_does {c : Channel α} {now : α} {p : Progress α}
    (hdue : c.wait? now = none → c.IsDue now p) (wire : Except Crash Wire) (attempt : Nat) :
    Does c now p (c.begin now wire attempt) := by
  obtain ⟨wait, hwait, h⟩ | ⟨hnone, h⟩ := begin_cases c now wire attempt
  · rw [h]
    exact .holdsBack hwait
  · rw [h]
    exact send_does (hdue hnone) wire attempt

theorem advance_does (c : Channel α) (now : α) (call : Call) (reply : Reply α) {p : Progress α}
    (hrun : p.hasEnded = false) : Does c now p (c.advance now call (some reply) p) := by
  cases p with
  | starting => exact begin_does id call.wire 0
  | sleeping delay next =>
    cases next with
    | retrying attempt => exact begin_does id call.wire attempt
    | sending attempt =>
      have hdue : c.IsDue now (.sleeping delay (.sending attempt)) := trivial
      exact send_does hdue call.wire attempt
  | awaiting wire attempt =>
    obtain ⟨hawaiting, hheld⟩ := verdict_waits call.expectJson attempt reply
    exact .receives rfl rfl hawaiting hheld
  | finished => cases hrun

theorem wait?_eq_some {c : Channel Rat} {now wait : Rat} (h : c.wait? now = some wait) :
    now + wait = c.lastRequest + c.interval := by
  simp only [wait?] at h
  split at h
  · cases h
    linarith
  · cases h

theorem wait?_eq_none {c : Channel Rat} {now : Rat} (h : c.wait? now = none) :
    c.lastRequest + c.interval ≤ now := by
  simp only [wait?] at h
  split at h
  · cases h
  · rename_i hnot
    have hzero : (Duration.ofNat 0 : Rat) = 0 := rfl
    rw [hzero] at hnot
    linarith

theorem wait?_of_le {c : Channel Rat} {now : Rat} (h : c.lastRequest + c.interval ≤ now) :
    c.wait? now = none := by
  have hnot : ¬ (0 : Rat) < c.interval - (now - c.lastRequest) := by linarith
  exact if_neg hnot

theorem wait?_of_sent {c : Channel Rat} (hpos : 0 < c.interval) (now : Rat) :
    wait? { c with lastRequest := now } now = some c.interval := by
  have hwait : c.interval - (now - now) = c.interval := by linarith
  simp only [wait?, hwait]
  exact if_pos hpos

theorem Does.due_eq {c c' : Channel Rat} {now : Rat} {p p' : Progress Rat}
    (h : Does c now p (c', p')) : c'.interval = c.interval ∧
      (p'.isHeldBack = true → p'.due now = c'.lastRequest + c.interval) := by
  cases h with
  | receives hinterval _ _ hheld =>
    refine ⟨hinterval, ?_⟩
    intro htrue
    cases hheld.symm.trans htrue
  | holdsBack hwait => exact ⟨rfl, fun _ => wait?_eq_some hwait⟩
  | attempts _ hinterval _ hheld =>
    refine ⟨hinterval, ?_⟩
    intro htrue
    cases hheld.symm.trans htrue

/-! ## What a run keeps -/

namespace Traffic

section

variable {t : Traffic α} {turn : Turn α} {c : Channel α} {caller' : Caller α}

theorem caller_of_turn? {r : Channel α × Caller α} (h : t.turn? turn = some r) :
    ∃ caller, t.callers[turn.id]? = some caller ∧ caller.progress.hasEnded = false ∧
      t.now ≤ turn.now ∧ caller.due ≤ turn.now ∧ r = caller.turn t.channel turn.now turn.reply := by
  unfold turn? at h
  split at h
  · cases h
  · rename_i caller hcaller
    split at h
    · rename_i htime
      obtain ⟨hrun, hnow, hdue⟩ := htime
      exact ⟨caller, hcaller, hrun, hnow, hdue, (Option.some.inj h).symm⟩
    · cases h

theorem exists_of_turn? (h : t.turn? turn = some (c, caller')) :
    ∃ caller p, t.callers[turn.id]? = some caller ∧ t.now ≤ turn.now ∧ caller.due ≤ turn.now ∧
      Does t.channel turn.now caller.progress (c, p) ∧
      caller' = { caller with progress := p, due := p.due turn.now, seen := c.lastRequest } := by
  obtain ⟨caller, hcaller, hrun, hnow, hdue, hturn⟩ := caller_of_turn? h
  have hdoes := advance_does t.channel turn.now caller.call turn.reply hrun
  cases hturn
  exact ⟨caller, _, hcaller, hnow, hdue, hdoes, rfl⟩

theorem step_of_none (h : t.turn? turn = none) : t.step turn = t ∧ t.sends turn = [] := by
  simp [step, sends, h]

theorem step_of_some (h : t.turn? turn = some (c, caller')) :
    t.step turn = ⟨c, turn.now, t.callers.set turn.id caller'⟩ ∧
      t.sends turn = if caller'.progress.isAwaiting then [turn.now] else [] := by
  simp [step, sends, h]

end

variable {t : Traffic Rat} {turn : Turn Rat} {interval : Rat}

/-- A call that is held back is due when the attempt it has seen is old enough. -/
structure Paced (interval : Rat) (t : Traffic Rat) : Prop where
  interval_eq : t.channel.interval = interval
  heldBack : ∀ caller ∈ t.callers, caller.progress.isHeldBack = true →
    caller.seen + interval ≤ caller.due

theorem paced_ofCalls (c : Channel Rat) (start : Rat) (calls : List Call) :
    Paced c.interval (ofCalls c start calls) := by
  refine ⟨rfl, ?_⟩
  intro caller hmem hheld
  obtain ⟨call, -, rfl⟩ := List.mem_map.mp hmem
  cases hheld

theorem Paced.step (h : Paced interval t) (turn : Turn Rat) : Paced interval (t.step turn) := by
  cases hturn : t.turn? turn with
  | none =>
    rw [(step_of_none hturn).1]
    exact h
  | some r =>
    obtain ⟨c, caller'⟩ := r
    obtain ⟨caller, p, hcaller, -, -, hdoes, rfl⟩ := exists_of_turn? hturn
    obtain ⟨hinterval, hdue⟩ := hdoes.due_eq
    rw [(step_of_some hturn).1]
    refine ⟨hinterval.trans h.interval_eq, ?_⟩
    intro other hmem hheld
    obtain hmem | rfl := List.mem_or_eq_of_mem_set hmem
    · exact h.heldBack other hmem hheld
    · rw [← h.interval_eq]
      exact le_of_eq (hdue hheld).symm

/-- An attempt that is not overtaken comes at least the interval after the one before. -/
theorem Paced.step_cases (h : Paced interval t) (hfree : ¬ t.Overtakes turn) :
    (t.step turn).channel.lastRequest = t.channel.lastRequest ∧ t.sends turn = [] ∨
      (t.step turn).channel.lastRequest = turn.now ∧
        t.channel.lastRequest + interval ≤ turn.now := by
  cases hturn : t.turn? turn with
  | none =>
    obtain ⟨hstep, hsends⟩ := step_of_none hturn
    exact .inl ⟨by rw [hstep], hsends⟩
  | some r =>
    obtain ⟨c, caller'⟩ := r
    obtain ⟨caller, p, hcaller, -, hdue, hdoes, rfl⟩ := exists_of_turn? hturn
    obtain ⟨hstep, hsends⟩ := step_of_some hturn
    rw [hstep, hsends]
    cases hdoes with
    | receives _ hlast hawaiting _ => exact .inl ⟨hlast, by simp [hawaiting]⟩
    | holdsBack hwait => exact .inl ⟨rfl, rfl⟩
    | attempts hready _ hlast _ =>
      refine .inr ⟨hlast, ?_⟩
      by_cases hheld : caller.progress.isHeldBack = true
      · have hseen : caller.seen = t.channel.lastRequest := by
          by_contra hne
          exact hfree ⟨caller, hcaller, hheld, by simp [hturn], hne⟩
        rw [← hseen]
        exact (h.heldBack caller (List.mem_of_getElem? hcaller) hheld).trans hdue
      · rw [← h.interval_eq]
        apply wait?_eq_none
        -- a call that was not held back has looked at the time of the latest attempt
        cases hp : caller.progress with
        | starting => simpa [IsDue, hp] using hready
        | sleeping delay next =>
          cases next with
          | retrying attempt => simpa [IsDue, hp] using hready
          | sending attempt => simp [Progress.isHeldBack, hp] at hheld
        | awaiting | finished => simp [IsDue, hp] at hready

theorem sends_cases (t : Traffic Rat) (turn : Turn Rat) :
    t.sends turn = [] ∨ t.sends turn = [turn.now] ∧ t.now ≤ turn.now := by
  cases hturn : t.turn? turn with
  | none => exact .inl (step_of_none hturn).2
  | some r =>
    obtain ⟨c, caller'⟩ := r
    obtain ⟨caller, p, -, hnow, -⟩ := exists_of_turn? hturn
    rw [(step_of_some hturn).2]
    split
    · exact .inr ⟨rfl, hnow⟩
    · exact .inl rfl

theorem now_le_step (t : Traffic Rat) (turn : Turn Rat) :
    t.now ≤ (t.step turn).now ∧ (t.sends turn ≠ [] → (t.step turn).now = turn.now) := by
  cases hturn : t.turn? turn with
  | none =>
    obtain ⟨hstep, hsends⟩ := step_of_none hturn
    rw [hstep, hsends]
    exact ⟨le_refl _, fun hne => absurd rfl hne⟩
  | some r =>
    obtain ⟨c, caller'⟩ := r
    obtain ⟨caller, p, -, hnow, -⟩ := exists_of_turn? hturn
    rw [(step_of_some hturn).1]
    exact ⟨hnow, fun _ => rfl⟩

theorem Paced.apart (h : Paced interval t) (hpos : 0 ≤ interval) {turns : List (Turn Rat)}
    (hfree : t.Undisturbed turns) :
    (t.requests turns).Pairwise (fun a b => interval ≤ b - a) ∧
      ∀ b ∈ t.requests turns, t.channel.lastRequest + interval ≤ b := by
  induction turns generalizing t with
  | nil => simp [requests]
  | cons turn turns ih =>
    obtain ⟨hturn, hrest⟩ := hfree
    obtain ⟨hapart, hlater⟩ := ih (h.step turn) hrest
    rw [requests]
    obtain ⟨hlast, hnone⟩ | ⟨hlast, hgap⟩ := h.step_cases hturn
    · rw [hnone, List.nil_append, ← hlast]
      exact ⟨hapart, hlater⟩
    · rw [hlast] at hlater
      have hlater' : ∀ b ∈ (t.step turn).requests turns, t.channel.lastRequest + interval ≤ b := by
        intro b hb
        linarith [hlater b hb]
      obtain hnone | ⟨hone, -⟩ := sends_cases t turn
      · rw [hnone, List.nil_append]
        exact ⟨hapart, hlater'⟩
      · rw [hone, List.singleton_append, List.pairwise_cons, List.forall_mem_cons]
        refine ⟨⟨?_, hapart⟩, hgap, hlater'⟩
        intro b hb
        linarith [hlater b hb]

theorem requests_sorted (t : Traffic Rat) (turns : List (Turn Rat)) :
    (t.requests turns).Pairwise (· ≤ ·) ∧ ∀ b ∈ t.requests turns, t.now ≤ b := by
  induction turns generalizing t with
  | nil => simp [requests]
  | cons turn turns ih =>
    obtain ⟨hsorted, hlater⟩ := ih (t.step turn)
    obtain ⟨hnow, hthen⟩ := now_le_step t turn
    rw [requests]
    obtain hnone | ⟨hone, hstart⟩ := sends_cases t turn
    · rw [hnone, List.nil_append]
      exact ⟨hsorted, fun b hb => hnow.trans (hlater b hb)⟩
    · rw [hthen (by simp [hone])] at hlater
      rw [hone, List.singleton_append, List.pairwise_cons, List.forall_mem_cons]
      exact ⟨⟨hlater, hsorted⟩, hstart, fun b hb => hstart.trans (hlater b hb)⟩

theorem ofCalls_apart (c : Channel Rat) (start : Rat) (calls : List Call) {turns : List (Turn Rat)}
    (hfree : (ofCalls c start calls).Undisturbed turns) :
    ((ofCalls c start calls).requests turns).Pairwise fun a b => c.interval ≤ b - a := by
  by_cases hpos : 0 ≤ c.interval
  · exact ((paced_ofCalls c start calls).apart hpos hfree).1
  · refine (requests_sorted (ofCalls c start calls) turns).1.imp ?_
    intro a b hab
    linarith

theorem undisturbed_of_alone (turns : List (Turn Rat)) (hone : t.callers.length ≤ 1)
    (hseen : ∀ caller ∈ t.callers, caller.seen = t.channel.lastRequest) : t.Undisturbed turns := by
  induction turns generalizing t with
  | nil => trivial
  | cons turn turns ih =>
    refine ⟨?_, ?_⟩
    · rintro ⟨caller, hcaller, -, -, hne⟩
      exact hne (hseen caller (List.mem_of_getElem? hcaller))
    · cases hturn : t.turn? turn with
      | none =>
        rw [(step_of_none hturn).1]
        exact ih hone hseen
      | some r =>
        obtain ⟨c, caller'⟩ := r
        obtain ⟨caller, p, hcaller, -, -, -, rfl⟩ := exists_of_turn? hturn
        rw [(step_of_some hturn).1]
        apply ih
        · rw [List.length_set]
          exact hone
        · intro other hmem
          obtain ⟨x, hx⟩ : ∃ x, t.callers = [x] := by
            apply List.length_eq_one_iff.mp
            have hlt := (List.getElem?_eq_some_iff.mp hcaller).1
            omega
          have hid : turn.id = 0 := by
            have hlt := (List.getElem?_eq_some_iff.mp hcaller).1
            rw [hx, List.length_singleton] at hlt
            omega
          rw [hx, hid, List.set_cons_zero, List.mem_singleton] at hmem
          rw [hmem]

/-! ## Calls that sleep side by side -/

section

variable {c : Channel Rat} {now start : Rat} {x y : Caller Rat}

theorem turn?_at (c : Channel Rat) (front back : List (Caller Rat)) (reply : Reply Rat)
    (hrun : x.progress.hasEnded = false) (hnow : start ≤ now) (hdue : x.due ≤ now) :
    turn? ⟨c, start, front ++ x :: back⟩ ⟨front.length, now, reply⟩ =
      some (x.turn c now reply) := by
  simp [turn?, hrun, hnow, hdue]

def inTurn (first count : Nat) (now : Rat) : List (Turn Rat) :=
  (List.range' first count).map (⟨·, now, .failed []⟩)

/-- The first of the neighbours has its turn, and then the others. -/
theorem requests_round (front : List (Caller Rat)) (hrun : x.progress.hasEnded = false)
    (hnow : start ≤ now) (hdue : x.due ≤ now) {c' : Channel Rat}
    (hturn : x.turn c now (.failed []) = (c', y)) (count : Nat) (turns : List (Turn Rat)) :
    requests ⟨c, start, front ++ List.replicate (count + 1) x⟩
        (inTurn front.length (count + 1) now ++ turns) =
      (if y.progress.isAwaiting then [now] else []) ++
        requests ⟨c', now, (front ++ [y]) ++ List.replicate count x⟩
          (inTurn (front ++ [y]).length count now ++ turns) := by
  have hhead := turn?_at c front (List.replicate count x) (.failed []) hrun hnow hdue
  rw [hturn] at hhead
  obtain ⟨hstep, hsends⟩ := step_of_some hhead
  have hset : (front ++ x :: List.replicate count x).set front.length y =
      (front ++ [y]) ++ List.replicate count x := by
    simp
  rw [inTurn, List.range'_succ, List.map_cons, List.cons_append, List.replicate_succ, requests,
    hsends, hstep, hset, List.length_append, List.length_singleton]
  rfl

theorem requests_look (front : List (Caller Rat)) (hrun : x.progress.hasEnded = false)
    (hdue : x.due ≤ now) (hturn : x.turn c now (.failed []) = (c, y))
    (hquiet : y.progress.isAwaiting = false) (count : Nat) (turns : List (Turn Rat)) :
    requests ⟨c, now, front ++ List.replicate count x⟩ (inTurn front.length count now ++ turns) =
      requests ⟨c, now, front ++ List.replicate count y⟩ turns := by
  induction count generalizing front with
  | zero => rfl
  | succ count ih =>
    rw [requests_round front hrun (le_refl _) hdue hturn, hquiet, ih (front ++ [y])]
    simp [List.replicate_succ]

theorem requests_wake (front : List (Caller Rat)) (hclosed : c.breaker.state = .closed)
    (hnow : start ≤ now) {w : Wire} {delay : Rat} {attempt : Nat} (hwire : x.call.wire = .ok w)
    (hasleep : x.progress = .sleeping delay (.sending attempt)) (hdue : x.due ≤ now) (count : Nat) :
    requests ⟨c, start, front ++ List.replicate count x⟩ (inTurn front.length count now ++ []) =
      List.replicate count now := by
  induction count generalizing c start front with
  | zero => rfl
  | succ count ih =>
    have hrun : x.progress.hasEnded = false := by
      rw [hasleep]
      rfl
    have hturn : x.turn c now (.failed []) =
        ({ c with lastRequest := now }, ⟨x.call, .awaiting w attempt, now, now⟩) := by
      rw [Caller.turn, hasleep, advance, wake, hwire, send_of_closed hclosed]
      rfl
    rw [requests_round front hrun hnow hdue hturn]
    exact congrArg (now :: ·) (ih (front ++ [_]) hclosed (le_refl _))

theorem turn_start (hclosed : c.breaker.state = .closed) {call : Call} {w : Wire}
    (hwire : call.wire = .ok w) (due seen : Rat) (reply : Reply Rat) (hwait : c.wait? now = none) :
    Caller.turn ⟨call, .starting, due, seen⟩ c now reply =
      ({ c with lastRequest := now }, ⟨call, .awaiting w 0, now, now⟩) := by
  rw [Caller.turn, advance, begin, hwait, hwire, send_of_closed hclosed]
  rfl

theorem turn_hold (call : Call) (due seen : Rat) (reply : Reply Rat) {wait : Rat}
    (hwait : c.wait? now = some wait) :
    Caller.turn ⟨call, .starting, due, seen⟩ c now reply =
      (c, ⟨call, .sleeping wait (.sending 0), now + wait, c.lastRequest⟩) := by
  rw [Caller.turn, advance, begin, hwait]
  rfl

/-- All calls but the first look at its request, and then send their own together. -/
theorem requests_together (hclosed : c.breaker.state = .closed) (hpos : 0 < c.interval)
    {call : Call} {w : Wire} (hwire : call.wire = .ok w) (hstart : start ≤ now)
    (hready : c.lastRequest + c.interval ≤ now) (n : Nat) :
    (ofCalls c start (List.replicate (n + 1) call)).requests
      (⟨0, now, .failed []⟩ :: (inTurn 1 n now ++ (inTurn 1 n (now + c.interval) ++ []))) =
      now :: List.replicate n (now + c.interval) := by
  have hcalls : ofCalls c start (List.replicate (n + 1) call) = ⟨c, start,
      ⟨call, .starting, start, c.lastRequest⟩ ::
        List.replicate n ⟨call, .starting, start, c.lastRequest⟩⟩ := by
    simp [ofCalls, List.replicate_succ]
  have hhead := @turn?_at now start ⟨call, .starting, start, c.lastRequest⟩ c []
    (List.replicate n ⟨call, .starting, start, c.lastRequest⟩) (.failed []) rfl hstart hstart
  rw [turn_start hclosed hwire _ _ _ (wait?_of_le hready), List.nil_append,
    List.length_nil] at hhead
  obtain ⟨hstep, hsends⟩ := step_of_some hhead
  have hlook := requests_look [⟨call, .awaiting w 0, now, now⟩] rfl hstart
    (turn_hold call start c.lastRequest (.failed []) (wait?_of_sent hpos now)) rfl n
    (inTurn 1 n (now + c.interval) ++ [])
  have hwake := @requests_wake { c with lastRequest := now } (now + c.interval) now
    ⟨call, .sleeping c.interval (.sending 0), now + c.interval, now⟩
    [⟨call, .awaiting w 0, now, now⟩] hclosed (le_add_of_nonneg_right hpos.le) w _ _ hwire rfl
    (le_refl _) n
  rw [hcalls, requests, hsends, hstep]
  exact congrArg (now :: ·) (hlook.trans hwake)

end

/-! ## The interval between requests -/

/-- Requests keep the interval as long as no call is overtaken in its sleep, which never happens to
a call without company; but any number of calls can be overtaken, and then send at one moment. -/
theorem requests_apart (c : Channel Rat) (start : Rat) :
    (∀ calls turns, (ofCalls c start calls).Undisturbed turns →
      ((ofCalls c start calls).requests turns).Pairwise fun a b => c.interval ≤ b - a) ∧
    (∀ call turns, (ofCalls c start [call]).Undisturbed turns) ∧
    (c.breaker.state = .closed → 0 < c.interval → ∀ n, ∃ calls turns first,
      (ofCalls c start calls).requests turns = first :: List.replicate n (first + c.interval)) := by
  refine ⟨fun calls turns => ofCalls_apart c start calls, ?_, ?_⟩
  · intro call turns
    exact undisturbed_of_alone turns (le_refl _) (by simp [ofCalls])
  · intro hclosed hpos n
    have hwire : (Call.mk (.ok ⟨[], []⟩) true).wire = .ok ⟨[], []⟩ := rfl
    exact ⟨_, _, _, requests_together hclosed hpos hwire (le_max_left _ _) (le_max_right _ _) n⟩

section

def everyFive : Channel Rat := fresh 5 defaultBreaker

def plainCall : Call := { wire := .ok ⟨"https://api.test/a", []⟩ }

/-- The second call waits for the first one, and has no company in its sleep. -/
theorem requests_apart_of_two :
    let turns : List (Turn Rat) :=
      [⟨0, 1000, .failed []⟩, ⟨1, 1001, .failed []⟩, ⟨1, 1005, .failed []⟩]
    let t := ofCalls everyFive 1000 [plainCall, plainCall]
    t.Undisturbed turns ∧ t.requests turns = [1000, 1005] ∧
      (t.requests turns).Pairwise (fun a b => 5 ≤ b - a) ∧
      ∃ calls turns first, (ofCalls everyFive 1000 calls).requests turns =
        first :: List.replicate 2 (first + 5) := by
  have hfree : (ofCalls everyFive 1000 [plainCall, plainCall]).Undisturbed
      [⟨0, 1000, .failed []⟩, ⟨1, 1001, .failed []⟩, ⟨1, 1005, .failed []⟩] := by
    decide +kernel
  obtain ⟨hapart, -, htogether⟩ := requests_apart everyFive 1000
  exact ⟨hfree, by decide +kernel, hapart _ _ hfree, htogether rfl (by decide +kernel) 2⟩

/-- Two calls look at the first request, sleep until it is old enough, and send together. -/
theorem three_calls_not_apart :
    (ofCalls everyFive 1000 [plainCall, plainCall, plainCall]).requests
      [⟨0, 1000, .failed []⟩, ⟨1, 1000, .failed []⟩, ⟨2, 1000, .failed []⟩,
        ⟨1, 1005, .failed []⟩, ⟨2, 1005, .failed []⟩] = [1000, 1005, 1005] ∧
    ¬ (∀ (c : Channel Rat) start calls turns,
      ((ofCalls c start calls).requests turns).Pairwise fun a b => c.interval ≤ b - a) := by
  have htogether : (ofCalls everyFive 1000 [plainCall, plainCall, plainCall]).requests
      [⟨0, 1000, .failed []⟩, ⟨1, 1000, .failed []⟩, ⟨2, 1000, .failed []⟩,
        ⟨1, 1005, .failed []⟩, ⟨2, 1005, .failed []⟩] = [1000, 1005, 1005] := by
    decide +kernel
  refine ⟨htogether, ?_⟩
  intro hall
  have hapart := hall everyFive 1000 [plainCall, plainCall, plainCall]
    [⟨0, 1000, .failed []⟩, ⟨1, 1000, .failed []⟩, ⟨2, 1000, .failed []⟩,
      ⟨1, 1005, .failed []⟩, ⟨2, 1005, .failed []⟩]
  rw [htogether] at hapart
  revert hapart
  decide +kernel

end

end Traffic

end Channel

end FieldSearch.Transport
