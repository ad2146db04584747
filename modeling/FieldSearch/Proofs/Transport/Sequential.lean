import FieldSearch.Proofs.Transport.Admission

/-!
# Calls one after the other

As long as no call begins while another one is in flight, a breaker is a machine with two states.
Probing needs no state of its own, since the end of the one trial decides: a breaker keeps the
failures that tripped it, so a trial that fails trips it again at once.
-/

namespace FieldSearch.Breaker

/-! ## The machine -/

/-- A breaker between two calls. -/
inductive Phase (α : Type) where
  | closed (failures : Nat)
  | tripped (since : α)
deriving DecidableEq

namespace Phase

variable {α : Type}

/-- The state after a call that was let in and ends now. -/
def after (threshold : Nat) (now : α) : Phase α → Bool → Phase α
  | closed failures, true => closed (failures - 1)
  | closed failures, false =>
    if threshold ≤ failures + 1 then tripped now else closed (failures + 1)
  | tripped _, true => closed 0
  | tripped _, false => tripped now

def refuses [Duration α] (recovery now : α) : Phase α → Bool
  | closed _ => false
  | tripped since => now - since ≤ recovery

end Phase

/-- The machine in use: the time, and whether a call is in flight. -/
structure Switch (α : Type) where
  threshold : Nat
  recovery : α
  phase : Phase α
  now : α
  busy : Bool := false

namespace Switch

variable {α : Type} [Duration α]

def fresh (threshold : Nat) (recovery start : α) : Switch α :=
  { threshold, recovery, phase := .closed 0, now := start }

def refuses (s : Switch α) : Bool := s.phase.refuses s.recovery s.now

def step (s : Switch α) : Event α → Switch α
  | .enter => if s.refuses then s else { s with busy := true }
  | .exit ok =>
    if s.busy then { s with phase := s.phase.after s.threshold s.now ok, busy := false } else s
  | .wait span => { s with now := s.now + span }

def run (s : Switch α) (events : List (Event α)) : Switch α := events.foldl step s

variable {s : Switch α}

theorem step_enter_of_refuses (h : s.refuses = true) : s.step .enter = s := if_pos h

theorem step_enter_of_not_refuses (h : s.refuses = false) :
    s.step .enter = { s with busy := true } := if_neg (by simp [h])

theorem step_exit_of_idle (h : s.busy = false) (ok : Bool) : s.step (.exit ok) = s :=
  if_neg (by simp [h])

theorem step_exit_of_busy (h : s.busy = true) (ok : Bool) : s.step (.exit ok) =
    { s with phase := s.phase.after s.threshold s.now ok, busy := false } := if_pos h

end Switch

/-! ## How a breaker shows -/

section

variable {α : Type} {b : Breaker α}

/-- The state that shows between two calls; none of a breaker that is probing. -/
def phase? (b : Breaker α) : Option (Phase α) :=
  match b.state with
  | .closed => some (.closed b.failures)
  | .tripped => some (.tripped b.lastFailure)
  | .probing => none

/-- The state in which a breaker shows, with or without a call in flight. Once tripped it has all
the failures that tripped it, and only with a call in flight it is probing. -/
inductive Shows (b : Breaker α) : Phase α → Bool → Prop
  | closed (busy : Bool) : b.state = .closed → Shows b (.closed b.failures) busy
  | tripped : b.state = .tripped → b.threshold ≤ b.failures → Shows b (.tripped b.lastFailure) false
  | trial (since : α) : b.state = .probing → b.threshold ≤ b.failures → Shows b (.tripped since) true

theorem Shows.phase?_eq {phase : Phase α} (h : Shows b phase false) : b.phase? = some phase := by
  unfold phase?
  cases h with
  | closed _ hs => rw [hs]
  | tripped hs _ => rw [hs]

theorem Shows.full {phase : Phase α} {busy : Bool} (h : Shows b phase busy)
    (hs : b.state ≠ .closed) : b.threshold ≤ b.failures := by
  cases h with
  | closed _ hclosed => exact absurd hclosed hs
  | tripped _ hfull => exact hfull
  | trial _ _ hfull => exact hfull

/-- The end of a call leads to the state in which the machine is then. -/
theorem Shows.exit {phase : Phase α} (h : Shows b phase true) (now : α) (ok : Bool) :
    Shows (b.exit now ok) (phase.after b.threshold now ok) false := by
  unfold Breaker.exit
  cases ok with
  | true =>
    rw [if_pos rfl]
    cases h with
    | closed _ hs =>
      rw [succeed_of_not_probing (by simp [hs])]
      exact .closed false hs
    | trial since hs _ =>
      rw [succeed_of_probing hs]
      exact .closed false rfl
  | false =>
    rw [if_neg Bool.false_ne_true]
    cases h with
    | closed _ hs =>
      by_cases hlt : b.failures + 1 < b.threshold
      · rw [fail_of_lt now hlt, Phase.after, if_neg (Nat.not_le_of_lt hlt)]
        exact .closed false hs
      · have hmany := Nat.le_of_not_lt hlt
        rw [fail_of_le now hmany, Phase.after, if_pos hmany]
        exact .tripped rfl hmany
    | trial since _ hfull =>
      -- the failures that tripped the breaker are still counted, so this one trips it again
      have hmany := Nat.le_succ_of_le hfull
      rw [fail_of_le now hmany]
      exact .tripped rfl hmany

theorem exit_limits (b : Breaker α) (now : α) (ok : Bool) :
    (b.exit now ok).threshold = b.threshold ∧ (b.exit now ok).recovery = b.recovery ∧
      (b.exit now ok).maxTrials = b.maxTrials := by
  unfold Breaker.exit
  cases ok with
  | true =>
    by_cases hs : b.state = .probing
    · simp [succeed_of_probing hs]
    · simp [succeed_of_not_probing hs]
  | false => exact ⟨rfl, rfl, rfl⟩

end

namespace Guard

variable {α : Type} [Duration α] {g : Guard α} {s : Switch α}

/-- No call begins while another one is in flight. -/
def Apart (g : Guard α) : List (Event α) → Prop
  | [] => True
  | e :: events => (e = .enter → g.inFlight = 0) ∧ (g.step e).Apart events

/-- A breaker in use does what the machine does. -/
structure Mirrors (g : Guard α) (s : Switch α) : Prop where
  threshold_eq : g.breaker.threshold = s.threshold
  recovery_eq : g.breaker.recovery = s.recovery
  maxTrials_pos : 1 ≤ g.breaker.maxTrials
  now_eq : g.now = s.now
  inFlight_eq : g.inFlight = s.busy.toNat
  shows : Shows g.breaker s.phase s.busy

theorem mirrors_fresh (threshold : Nat) (recovery : α) {maxTrials : Nat} (start : α)
    (hmax : 1 ≤ maxTrials) :
    Mirrors (fresh threshold recovery maxTrials start) (.fresh threshold recovery start) :=
  ⟨rfl, rfl, hmax, rfl, rfl, .closed false rfl⟩

/-! ## Between two calls -/

section

omit [Duration α]

theorem Mirrors.phase?_eq (h : Mirrors g s) (hidle : g.inFlight = 0) :
    g.breaker.phase? = some s.phase := by
  have hbusy : s.busy = false := Bool.toNat_eq_zero.mp (h.inFlight_eq.symm.trans hidle)
  have hshows := h.shows
  rw [hbusy] at hshows
  exact hshows.phase?_eq

theorem Mirrors.phase_of_closed (h : Mirrors g s) (hidle : g.inFlight = 0)
    (hs : g.breaker.state = .closed) : s.phase = .closed g.breaker.failures := by
  have hphase := h.phase?_eq hidle
  rw [phase?, hs] at hphase
  exact (Option.some.inj hphase).symm

theorem Mirrors.phase_of_tripped (h : Mirrors g s) (hidle : g.inFlight = 0)
    (hs : g.breaker.state = .tripped) : s.phase = .tripped g.breaker.lastFailure := by
  have hphase := h.phase?_eq hidle
  rw [phase?, hs] at hphase
  exact (Option.some.inj hphase).symm

theorem Mirrors.not_probing (h : Mirrors g s) (hidle : g.inFlight = 0) :
    g.breaker.state ≠ .probing := by
  intro hs
  have hphase := h.phase?_eq hidle
  rw [phase?, hs] at hphase
  cases hphase

end

theorem Mirrors.rejectsAll_eq (h : Mirrors g s) (hidle : g.inFlight = 0) :
    g.breaker.rejectsAll g.now = s.refuses := by
  unfold rejectsAll Switch.refuses
  cases hs : g.breaker.state with
  | closed =>
    rw [h.phase_of_closed hidle hs]
    rfl
  | tripped =>
    rw [h.phase_of_tripped hidle hs, isCooling, h.recovery_eq, h.now_eq]
    rfl
  | probing => exact absurd hs (h.not_probing hidle)

theorem Mirrors.refuses_of_closed (h : Mirrors g s) (hidle : g.inFlight = 0)
    (hs : g.breaker.state = .closed) : s.refuses = false := by
  rw [← h.rejectsAll_eq hidle, rejectsAll, hs]
  rfl

theorem Mirrors.refuses_of_tripped (h : Mirrors g s) (hidle : g.inFlight = 0)
    (hs : g.breaker.state = .tripped) : s.refuses = g.breaker.isCooling g.now := by
  rw [← h.rejectsAll_eq hidle, rejectsAll, hs]
  rfl

theorem Mirrors.enter_eq (h : Mirrors g s) (hidle : g.inFlight = 0) :
    (g.breaker.enter g.now).2 = if s.refuses then some .cooling else none := by
  obtain ⟨hs, he⟩ | ⟨hs, hcool, he⟩ | ⟨hs, hcool, he⟩ | ⟨hs, -⟩ := enter_cases g.breaker g.now
  · rw [he, h.refuses_of_closed hidle hs]
    rfl
  · rw [he, h.refuses_of_tripped hidle hs, hcool]
    rfl
  · rw [he, h.refuses_of_tripped hidle hs, hcool, tryTrial,
      if_neg (Nat.not_le_of_lt h.maxTrials_pos)]
    rfl
  · exact absurd hs (h.not_probing hidle)

/-! ## Step by step -/

theorem Mirrors.enter (h : Mirrors g s) (hidle : g.inFlight = 0) :
    Mirrors (g.step .enter) (s.step .enter) := by
  have heffect := effect_step g .enter
  generalize g.step .enter = g' at heffect
  cases heffect with
  | free hs =>
    rw [Switch.step_enter_of_not_refuses (h.refuses_of_closed hidle hs)]
    refine ⟨h.threshold_eq, h.recovery_eq, h.maxTrials_pos, h.now_eq, by simp [hidle], ?_⟩
    rw [h.phase_of_closed hidle hs]
    exact .closed true hs
  | cooling hs hcool =>
    rw [Switch.step_enter_of_refuses ((h.refuses_of_tripped hidle hs).trans hcool)]
    exact h
  | firstTrial hs hcool =>
    rw [Switch.step_enter_of_not_refuses ((h.refuses_of_tripped hidle hs).trans hcool)]
    refine ⟨h.threshold_eq, h.recovery_eq, h.maxTrials_pos, h.now_eq, by simp [hidle], ?_⟩
    rw [h.phase_of_tripped hidle hs]
    exact .trial _ rfl (h.shows.full (by simp [hs]))
  | noTrial _ _ hnone => exact absurd h.maxTrials_pos (by simp [hnone])
  | trial hs => exact absurd hs (h.not_probing hidle)
  | trialsTaken hs => exact absurd hs (h.not_probing hidle)

theorem Mirrors.exit (h : Mirrors g s) (ok : Bool) :
    Mirrors (g.step (.exit ok)) (s.step (.exit ok)) := by
  have hflight := h.inFlight_eq
  have hshows := h.shows
  cases hbusy : s.busy with
  | false =>
    rw [hbusy] at hflight
    rw [Switch.step_exit_of_idle hbusy, Guard.step, hflight]
    exact h
  | true =>
    rw [hbusy] at hflight hshows
    obtain ⟨hthreshold, hrecovery, hmax⟩ := exit_limits g.breaker g.now ok
    rw [Switch.step_exit_of_busy hbusy, ← h.threshold_eq, ← h.now_eq, Guard.step, hflight]
    exact ⟨hthreshold, hrecovery.trans h.recovery_eq, hmax ▸ h.maxTrials_pos, rfl, rfl,
      hshows.exit g.now ok⟩

theorem Mirrors.step (h : Mirrors g s) (e : Event α) (hapart : e = .enter → g.inFlight = 0) :
    Mirrors (g.step e) (s.step e) := by
  cases e with
  | enter => exact h.enter (hapart rfl)
  | exit ok => exact h.exit ok
  | wait span =>
    refine ⟨h.threshold_eq, h.recovery_eq, h.maxTrials_pos, ?_, h.inFlight_eq, h.shows⟩
    exact congrArg (· + span) h.now_eq

theorem Mirrors.run (h : Mirrors g s) {events : List (Event α)} (hapart : g.Apart events) :
    Mirrors (g.run events) (s.run events) := by
  induction events generalizing g s with
  | nil => exact h
  | cons e events ih =>
    obtain ⟨hfirst, hrest⟩ := hapart
    exact ih (h.step e hfirst) hrest

/-- **Calls one after the other.** Let calls pass through a breaker while time goes on, none of them
beginning while another one is in flight. It then does what the machine with two states does. Between
two calls it is not probing and shows in the state of the machine, and a call is let in or comes too
early as the machine says. -/
theorem two_state_machine (threshold maxTrials : Nat) (recovery start : α) (hmax : 1 ≤ maxTrials)
    (events : List (Event α)) (hapart : (fresh threshold recovery maxTrials start).Apart events) :
    let g := (fresh threshold recovery maxTrials start).run events
    let s := (Switch.fresh threshold recovery start).run events
    g.now = s.now ∧ g.inFlight = s.busy.toNat ∧
    (g.inFlight = 0 →
      g.breaker.state ≠ .probing ∧ g.breaker.phase? = some s.phase ∧
      g.breaker.rejectsAll g.now = s.refuses ∧
      (g.breaker.enter g.now).2 = if s.refuses then some .cooling else none) := by
  intro g s
  have hmirrors : Mirrors g s := (mirrors_fresh threshold recovery start hmax).run hapart
  refine ⟨hmirrors.now_eq, hmirrors.inFlight_eq, fun hidle => ⟨hmirrors.not_probing hidle, ?_, ?_, ?_⟩⟩
  · exact hmirrors.phase?_eq hidle
  · exact hmirrors.rejectsAll_eq hidle
  · exact hmirrors.enter_eq hidle

/-- Two calls fail, the next one comes too early, and the trial after that takes two seconds and
fails. -/
def refusedCalls : List (Event Rat) :=
  [.enter, .wait 1, .exit false, .enter, .exit false, .wait 30, .enter, .wait 1, .enter, .wait 2,
   .exit false]

theorem two_state_machine_refused :
    let new := fresh 2 (30 : Rat) 1 1000
    let g := new.run refusedCalls
    let later := new.run (refusedCalls ++ [.wait 31, .enter, .exit true])
    new.Apart refusedCalls ∧ g.inFlight = 0 ∧ g.breaker.phase? = some (.tripped 1034) ∧
      (g.breaker.enter g.now).2 = some .cooling ∧ later.breaker.phase? = some (.closed 0) := by
  intro new g later
  have hapart : new.Apart refusedCalls := by
    unfold refusedCalls
    simp only [Apart, reduceCtorEq, false_implies, true_and, and_true]
    decide +kernel
  have hlater : new.Apart (refusedCalls ++ [.wait 31, .enter, .exit true]) := by
    unfold refusedCalls
    simp only [List.cons_append, List.nil_append, Apart, reduceCtorEq, false_implies, true_and,
      and_true]
    decide +kernel
  obtain ⟨-, -, hidle⟩ := two_state_machine 2 1 (30 : Rat) 1000 (by decide) refusedCalls hapart
  obtain ⟨-, -, hidleLater⟩ := two_state_machine 2 1 (30 : Rat) 1000 (by decide) _ hlater
  obtain ⟨-, hphase, -, henter⟩ := hidle (by decide +kernel)
  obtain ⟨-, hphaseLater, -⟩ := hidleLater (by decide +kernel)
  refine ⟨hapart, by decide +kernel, hphase.trans ?_, henter.trans ?_, hphaseLater.trans ?_⟩
  · decide +kernel
  · decide +kernel
  · decide +kernel

end Guard

end FieldSearch.Breaker
