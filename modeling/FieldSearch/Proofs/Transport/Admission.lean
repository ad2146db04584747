import FieldSearch.Proofs.Transport.Recovery

/-!
# Admission by a circuit breaker

What one event does to a breaker in use, and what holds along every run of calls that may overlap:
a closed breaker has counted fewer failures than trip it, a round of trials has no more calls than
are allowed, and nothing gets through a tripped breaker before the recovery time is over.
-/

namespace FieldSearch.Breaker

theorem succeed_of_probing {α : Type} {b : Breaker α} (h : b.state = .probing) :
    b.succeed = { b with state := .closed, failures := 0 } := by
  simp [succeed, h]

theorem succeed_of_not_probing {α : Type} {b : Breaker α} (h : b.state ≠ .probing) :
    b.succeed = { b with failures := b.failures - 1 } := by
  unfold succeed
  cases hs : b.state with
  | probing => exact absurd hs h
  | closed | tripped => simp

namespace Guard

variable {α : Type} [Duration α] {g : Guard α}

/-! ## What an event does -/

/-- All that an event can do to a breaker in use. -/
inductive Effect (g : Guard α) : Event α → Guard α → Prop
  | free : g.breaker.state = .closed → Effect g .enter { g with inFlight := g.inFlight + 1 }
  | cooling : g.breaker.state = .tripped → g.breaker.isCooling g.now = true → Effect g .enter g
  | firstTrial : g.breaker.state = .tripped → g.breaker.isCooling g.now = false →
      0 < g.breaker.maxTrials →
      Effect g .enter
        { g with
          breaker := { g.breaker with state := .probing, trials := 1 }
          inFlight := g.inFlight + 1 }
  | noTrial : g.breaker.state = .tripped → g.breaker.isCooling g.now = false →
      g.breaker.maxTrials = 0 →
      Effect g .enter { g with breaker := { g.breaker with state := .probing, trials := 0 } }
  | trial : g.breaker.state = .probing → g.breaker.trials < g.breaker.maxTrials →
      Effect g .enter
        { g with
          breaker := { g.breaker with trials := g.breaker.trials + 1 }
          inFlight := g.inFlight + 1 }
  | trialsTaken : g.breaker.state = .probing → g.breaker.maxTrials ≤ g.breaker.trials →
      Effect g .enter g
  | nobody (ok : Bool) : g.inFlight = 0 → Effect g (.exit ok) g
  | closes (n : Nat) : g.inFlight = n + 1 → g.breaker.state = .probing →
      Effect g (.exit true)
        { g with breaker := { g.breaker with state := .closed, failures := 0 }, inFlight := n }
  | relieves (n : Nat) : g.inFlight = n + 1 → g.breaker.state ≠ .probing →
      Effect g (.exit true)
        { g with
          breaker := { g.breaker with failures := g.breaker.failures - 1 }
          inFlight := n }
  | counts (n : Nat) : g.inFlight = n + 1 → g.breaker.failures + 1 < g.breaker.threshold →
      Effect g (.exit false)
        { g with
          breaker := { g.breaker with failures := g.breaker.failures + 1, lastFailure := g.now }
          inFlight := n }
  | trips (n : Nat) : g.inFlight = n + 1 → g.breaker.threshold ≤ g.breaker.failures + 1 →
      Effect g (.exit false)
        { g with
          breaker :=
            { g.breaker with
              failures := g.breaker.failures + 1, lastFailure := g.now, state := .tripped }
          inFlight := n }
  | waits (span : α) : Effect g (.wait span) { g with now := g.now + span }

theorem effect_enter (g : Guard α) : Effect g .enter (g.step .enter) := by
  unfold step
  obtain ⟨hs, he⟩ | ⟨hs, hc, he⟩ | ⟨hs, hc, he⟩ | ⟨hs, he⟩ := enter_cases g.breaker g.now
  · rw [he]
    exact .free hs
  · rw [he]
    exact .cooling hs hc
  · rw [he]
    obtain ⟨hnone, ht⟩ | ⟨hfree, ht⟩ :=
      tryTrial_cases { g.breaker with state := .probing, trials := 0 }
    · rw [ht]
      exact .noTrial hs hc (Nat.le_zero.mp hnone)
    · rw [ht]
      exact .firstTrial hs hc hfree
  · rw [he]
    obtain ⟨htaken, ht⟩ | ⟨hfree, ht⟩ := tryTrial_cases g.breaker
    · rw [ht]
      exact .trialsTaken hs htaken
    · rw [ht]
      exact .trial hs hfree

theorem effect_exit (g : Guard α) (ok : Bool) : Effect g (.exit ok) (g.step (.exit ok)) := by
  unfold step
  cases hcalls : g.inFlight with
  | zero => exact .nobody ok hcalls
  | succ n =>
    cases ok with
    | true =>
      simp only [Breaker.exit, if_true]
      by_cases hs : g.breaker.state = .probing
      · rw [succeed_of_probing hs]
        exact .closes n hcalls hs
      · rw [succeed_of_not_probing hs]
        exact .relieves n hcalls hs
    | false =>
      simp only [Breaker.exit, Bool.false_eq_true, if_false]
      by_cases hlt : g.breaker.failures + 1 < g.breaker.threshold
      · rw [fail_of_lt g.now hlt]
        exact .counts n hcalls hlt
      · rw [fail_of_le g.now (Nat.le_of_not_lt hlt)]
        exact .trips n hcalls (Nat.le_of_not_lt hlt)

theorem effect_step (g : Guard α) (e : Event α) : Effect g e (g.step e) := by
  cases e with
  | enter => exact effect_enter g
  | exit ok => exact effect_exit g ok
  | wait span => exact .waits span

theorem admits_iff (g : Guard α) : g.admits ↔ (g.step .enter).inFlight = g.inFlight + 1 := by
  unfold admits step
  obtain ⟨b, rejection⟩ := g.breaker.enter g.now
  cases rejection <;> simp

/-! ## Trials and failures of a run -/

def BeginsTrials (g : Guard α) (e : Event α) : Prop :=
  g.breaker.state ≠ .probing ∧ (g.step e).breaker.state = .probing

/-- How many calls an event lets in while the breaker is probing. -/
def trialsOf (g : Guard α) : Event α → Nat
  | .enter => if g.admits ∧ (g.step .enter).breaker.state = .probing then 1 else 0
  | .exit _ | .wait _ => 0

def trialsIn (g : Guard α) : List (Event α) → Nat
  | [] => 0
  | e :: events => g.trialsOf e + (g.step e).trialsIn events

/-- No trials begin anew. -/
def InRound (g : Guard α) : List (Event α) → Prop
  | [] => True
  | e :: events => ¬ g.BeginsTrials e ∧ (g.step e).InRound events

/-- The time at which an event records a failure. -/
def failure? (g : Guard α) : Event α → Option α
  | .exit false => if g.inFlight = 0 then none else some g.now
  | .exit true | .enter | .wait _ => none

/-- The time of the latest failure, given the one that is known before the run. -/
def latestFailure? (g : Guard α) (known : Option α) : List (Event α) → Option α
  | [] => known
  | e :: events => (g.step e).latestFailure? ((g.failure? e).or known) events

theorem trialsOf_enter (h : (g.step .enter).inFlight = g.inFlight + 1)
    (hs : (g.step .enter).breaker.state = .probing) : g.trialsOf .enter = 1 :=
  if_pos ⟨(admits_iff g).mpr h, hs⟩

theorem trialsOf_enter_of_not (h : ¬ ((g.step .enter).inFlight = g.inFlight + 1 ∧
    (g.step .enter).breaker.state = .probing)) : g.trialsOf .enter = 0 := by
  apply if_neg
  rw [admits_iff]
  exact h

/-- The trials that a breaker counts are the calls it lets in while it is probing. -/
theorem trials_step (g : Guard α) (e : Event α) :
    g.BeginsTrials e ∧ (g.step e).breaker.trials = g.trialsOf e ∨
      ¬ g.BeginsTrials e ∧ (g.step e).breaker.trials = g.breaker.trials + g.trialsOf e := by
  have heffect := effect_step g e
  unfold BeginsTrials
  generalize hstep : g.step e = g' at heffect
  cases heffect with
  | free hs =>
    have hnone : g.trialsOf .enter = 0 := trialsOf_enter_of_not (by simp [hstep, hs])
    exact .inr ⟨by simp [hs], by rw [hnone]; rfl⟩
  | cooling hs =>
    have hnone : g.trialsOf .enter = 0 := trialsOf_enter_of_not (by simp [hstep])
    exact .inr ⟨by simp [hs], by rw [hnone]; rfl⟩
  | firstTrial hs =>
    have hone : g.trialsOf .enter = 1 := trialsOf_enter (by simp [hstep]) (by simp [hstep])
    exact .inl ⟨by simp [hs], hone.symm⟩
  | noTrial hs =>
    have hnone : g.trialsOf .enter = 0 := trialsOf_enter_of_not (by simp [hstep])
    exact .inl ⟨by simp [hs], hnone.symm⟩
  | trial hs =>
    have hone : g.trialsOf .enter = 1 := trialsOf_enter (by simp [hstep]) (by simp [hstep, hs])
    exact .inr ⟨by simp [hs], by rw [hone]⟩
  | trialsTaken hs =>
    have hnone : g.trialsOf .enter = 0 := trialsOf_enter_of_not (by simp [hstep])
    exact .inr ⟨by simp [hs], by rw [hnone]; rfl⟩
  | nobody | closes | relieves | counts | trips | waits => exact .inr ⟨by simp, rfl⟩

theorem trials_run {events : List (Event α)} (h : g.InRound events) :
    (g.run events).breaker.trials = g.breaker.trials + g.trialsIn events := by
  induction events generalizing g with
  | nil => rfl
  | cons e events ih =>
    obtain ⟨hsame, hrest⟩ := h
    obtain ⟨hbegins, -⟩ | ⟨-, htrials⟩ := trials_step g e
    · exact absurd hbegins hsame
    · exact (ih hrest).trans (by rw [htrials, trialsIn, Nat.add_assoc])

/-! ## What a run keeps -/

/-- What a breaker has counted, with the time of the latest failure of its calls. -/
structure Counted (threshold maxTrials : Nat) (recovery : α) (g : Guard α) (latest : Option α) :
    Prop where
  threshold_eq : g.breaker.threshold = threshold
  maxTrials_eq : g.breaker.maxTrials = maxTrials
  recovery_eq : g.breaker.recovery = recovery
  failures_lt : g.breaker.state = .closed → g.breaker.failures < threshold
  trials_le : g.breaker.trials ≤ maxTrials
  latest_eq : g.breaker.state ≠ .closed → latest = some g.breaker.lastFailure

variable {threshold maxTrials : Nat} {recovery : α} {latest : Option α}

theorem counted_fresh (h : 1 ≤ threshold) (maxTrials : Nat) (recovery start : α) :
    Counted threshold maxTrials recovery (fresh threshold recovery maxTrials start) none :=
  ⟨rfl, rfl, rfl, fun _ => h, Nat.zero_le _, fun hne => absurd rfl hne⟩

theorem Counted.step (h : Counted threshold maxTrials recovery g latest) (hpos : 1 ≤ threshold)
    (e : Event α) :
    Counted threshold maxTrials recovery (g.step e) ((g.failure? e).or latest) := by
  obtain ⟨hthreshold, hmax, hrecovery, hlt, htrials, hlatest⟩ := h
  have heffect := effect_step g e
  generalize g.step e = g' at heffect
  cases heffect with
  | free | cooling | trialsTaken | waits =>
    exact ⟨hthreshold, hmax, hrecovery, hlt, htrials, hlatest⟩
  | firstTrial hs _ hfree =>
    refine ⟨hthreshold, hmax, hrecovery, nofun, ?_, fun _ => hlatest (by simp [hs])⟩
    exact hmax ▸ hfree
  | noTrial hs =>
    exact ⟨hthreshold, hmax, hrecovery, nofun, Nat.zero_le _, fun _ => hlatest (by simp [hs])⟩
  | trial hs hfree =>
    refine ⟨hthreshold, hmax, hrecovery, hlt, ?_, hlatest⟩
    exact hmax ▸ hfree
  | nobody ok hidle =>
    refine ⟨hthreshold, hmax, hrecovery, hlt, htrials, ?_⟩
    cases ok <;> simpa [failure?, hidle] using hlatest
  | closes n hcalls hs =>
    exact ⟨hthreshold, hmax, hrecovery, fun _ => hpos, htrials, fun hne => absurd rfl hne⟩
  | relieves n hcalls hs =>
    refine ⟨hthreshold, hmax, hrecovery, ?_, htrials, hlatest⟩
    intro hclosed
    exact Nat.lt_of_le_of_lt (Nat.sub_le ..) (hlt hclosed)
  | counts n hcalls hfew =>
    refine ⟨hthreshold, hmax, hrecovery, fun _ => hthreshold ▸ hfew, htrials, ?_⟩
    simp [failure?, hcalls]
  | trips n hcalls hmany =>
    refine ⟨hthreshold, hmax, hrecovery, nofun, htrials, ?_⟩
    simp [failure?, hcalls]

theorem Counted.run (h : Counted threshold maxTrials recovery g latest) (hpos : 1 ≤ threshold)
    (events : List (Event α)) :
    Counted threshold maxTrials recovery (g.run events) (g.latestFailure? latest events) := by
  induction events generalizing g latest with
  | nil => exact h
  | cons e events ih => exact ih (h.step hpos e)

/-- A round of trials has at most as many calls as a breaker allows. -/
theorem Counted.trialsIn_le (h : Counted threshold maxTrials recovery g latest)
    (hpos : 1 ≤ threshold) {e : Event α} (hbegins : g.BeginsTrials e) {events : List (Event α)}
    (hround : (g.step e).InRound events) : g.trialsIn (e :: events) ≤ maxTrials := by
  have hfirst : (g.step e).breaker.trials = g.trialsOf e := by
    obtain ⟨-, hfirst⟩ | ⟨hsame, -⟩ := trials_step g e
    · exact hfirst
    · exact absurd hbegins hsame
  calc g.trialsIn (e :: events)
    _ = (g.step e).breaker.trials + (g.step e).trialsIn events := by rw [hfirst, trialsIn]
    _ = ((g.step e).run events).breaker.trials := (trials_run hround).symm
    _ ≤ maxTrials := ((h.step hpos e).run hpos events).trials_le

/-- A call that is rejected is not in flight, and is counted neither as a failure nor as a trial. -/
theorem Counted.step_rejected (h : Counted threshold maxTrials recovery g latest)
    (hrejected : ¬ g.admits) :
    (g.step .enter).inFlight = g.inFlight ∧
      (g.step .enter).breaker.failures = g.breaker.failures ∧
      (g.step .enter).breaker.lastFailure = g.breaker.lastFailure ∧
      (g.step .enter).breaker.trials = g.breaker.trials := by
  rw [admits_iff] at hrejected
  have heffect := effect_step g .enter
  generalize g.step .enter = g' at heffect hrejected
  cases heffect with
  | cooling | trialsTaken => exact ⟨rfl, rfl, rfl, rfl⟩
  | noTrial _ _ hnone =>
    -- no trials are allowed, so none was counted before either
    have htrials : g.breaker.trials = 0 := by
      have hle := h.trials_le
      rw [← h.maxTrials_eq, hnone] at hle
      exact Nat.le_zero.mp hle
    exact ⟨rfl, rfl, rfl, htrials.symm⟩
  | free | firstTrial | trial => exact absurd rfl hrejected

theorem not_admits_of_cooling (hs : g.breaker.state = .tripped)
    (hcool : g.now - g.breaker.lastFailure ≤ g.breaker.recovery) : ¬ g.admits := by
  have hcooling : g.breaker.isCooling g.now = true := decide_eq_true hcool
  unfold admits
  simp [Breaker.enter, hs, hcooling]

theorem failures_relieved (hs : g.breaker.state ≠ .probing) (hcalls : g.inFlight ≠ 0) :
    ((g.step (.exit true)).breaker.failures : Int) = max 0 ((g.breaker.failures : Int) - 1) := by
  have heffect := effect_step g (.exit true)
  generalize g.step (.exit true) = g' at heffect
  cases heffect with
  | nobody _ hidle => exact absurd hidle hcalls
  | closes n _ hprobing => exact absurd hprobing hs
  | relieves n =>
    simp only
    omega

/-- **Admission.** Let calls pass through a breaker in any order, overlapping as they may, while
time goes on. As long as it is closed, fewer failures are counted than trip it, and a success never
takes the count below zero. From the beginning of a round of trials to that of the next one, no more
calls are let in while the breaker is probing than it allows trials. A tripped breaker lets nothing
in until more than the recovery time has passed since the latest failure. A call that is rejected
changes neither the failures nor the time of the latest one, and is not counted as a trial. -/
theorem admission (threshold maxTrials : Nat) (recovery start : α) (hthreshold : 1 ≤ threshold)
    (events : List (Event α)) :
    let new := Guard.fresh threshold recovery maxTrials start
    let g := new.run events
    (g.breaker.state = .closed → g.breaker.failures < threshold) ∧
    (g.breaker.state ≠ .probing → g.inFlight ≠ 0 →
      ((g.step (.exit true)).breaker.failures : Int) = max 0 ((g.breaker.failures : Int) - 1)) ∧
    (∀ e more, g.BeginsTrials e → (g.step e).InRound more → g.trialsIn (e :: more) ≤ maxTrials) ∧
    (g.breaker.state = .tripped → ∃ latest, new.latestFailure? none events = some latest ∧
      (g.now - latest ≤ recovery → ¬ g.admits)) ∧
    (¬ g.admits →
      (g.step .enter).inFlight = g.inFlight ∧
      (g.step .enter).breaker.failures = g.breaker.failures ∧
      (g.step .enter).breaker.lastFailure = g.breaker.lastFailure ∧
      (g.step .enter).breaker.trials = g.breaker.trials) := by
  intro new g
  have hcounted : Counted threshold maxTrials recovery g (new.latestFailure? none events) :=
    (counted_fresh hthreshold maxTrials recovery start).run hthreshold events
  refine ⟨hcounted.failures_lt, failures_relieved, ?_, ?_, hcounted.step_rejected⟩
  · intro e more hbegins hround
    exact hcounted.trialsIn_le hthreshold hbegins hround
  · intro hs
    refine ⟨g.breaker.lastFailure, hcounted.latest_eq (by simp [hs]), ?_⟩
    intro hcool
    exact not_admits_of_cooling hs (hcounted.recovery_eq.symm ▸ hcool)

/-- Three calls overlap and two of them fail, which trips the breaker; the third one succeeds after
that, and a call that comes too early is rejected. -/
def overlappingCalls : List (Event Rat) :=
  [.enter, .enter, .enter, .exit false, .wait 5, .exit false, .exit true, .wait 29, .enter]

/-- After two seconds more, the first of two calls is the only trial. -/
theorem admission_overlapping :
    let new := Guard.fresh 2 (30 : Rat) 1 1000
    let g := new.run overlappingCalls
    let rested := new.run (overlappingCalls ++ [.wait 2])
    1 ≤ 2 ∧ g.breaker.failures = 1 ∧ new.latestFailure? none overlappingCalls = some 1005 ∧
      ¬ g.admits ∧ rested.admits ∧ rested.trialsIn [.enter, .enter] ≤ 1 ∧
      ¬ (rested.step .enter).admits := by
  intro new g rested
  obtain ⟨-, -, -, hcool, -⟩ := admission 2 1 (30 : Rat) 1000 (by decide) overlappingCalls
  obtain ⟨-, -, hround, -, -⟩ :=
    admission 2 1 (30 : Rat) 1000 (by decide) (overlappingCalls ++ [.wait 2])
  have hlatest : new.latestFailure? none overlappingCalls = some 1005 := by decide +kernel
  have hrejected : ¬ g.admits := by
    obtain ⟨latest, hknown, hnot⟩ := hcool (by decide +kernel)
    cases hlatest.symm.trans hknown
    exact hnot (by decide +kernel)
  have hbegins : rested.BeginsTrials .enter := by
    unfold BeginsTrials
    decide +kernel
  have hsame : (rested.step .enter).InRound [.enter] := by
    refine ⟨?_, trivial⟩
    unfold BeginsTrials
    decide +kernel
  exact ⟨by decide, by decide +kernel, hlatest, hrejected, by decide +kernel,
    hround .enter [.enter] hbegins hsame, by decide +kernel⟩

end Guard

end FieldSearch.Breaker
