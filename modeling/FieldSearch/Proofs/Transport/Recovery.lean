import FieldSearch.Transport.Breaker
import Mathlib.Algebra.Order.Group.Unbundled.Abs
import Mathlib.Algebra.Order.Ring.Rat
import Mathlib.Tactic.Linarith

/-!
# Recovery of a circuit breaker

Calls pass through a breaker in any order and may overlap. A trial that fails counts towards the
threshold like any other failure, and a call that succeeds while the breaker is tripped takes one
failure off. So the trials that a breaker allows can all fail without tripping it again, and then
nothing gets through any more. This can happen exactly if fewer trials are allowed than failures.
-/

namespace FieldSearch

namespace Breaker

inductive Event (α : Type) where
  | enter
  | exit (ok : Bool)
  | wait (span : α)

/-- A breaker in use: the time, and how many calls it has let in that have not ended. -/
structure Guard (α : Type) where
  breaker : Breaker α
  now : α
  inFlight : Nat := 0

namespace Guard

variable {α : Type} [Duration α]

def fresh (threshold : Nat) (recovery : α) (maxTrials : Nat) (start : α) : Guard α :=
  ⟨.fresh threshold recovery maxTrials, start, 0⟩

def step (g : Guard α) : Event α → Guard α
  | .enter =>
    match g.breaker.enter g.now with
    | (b, none) => { g with breaker := b, inFlight := g.inFlight + 1 }
    | (b, some _) => { g with breaker := b }
  | .exit ok =>
    match g.inFlight with
    | 0 => g
    | n + 1 => { g with breaker := g.breaker.exit g.now ok, inFlight := n }
  | .wait span => { g with now := g.now + span }

def run (g : Guard α) (events : List (Event α)) : Guard α := events.foldl step g

def admits (g : Guard α) : Prop := (g.breaker.enter g.now).2 = none

instance (g : Guard α) : Decidable g.admits := inferInstanceAs (Decidable (_ = _))

/-- No call is in flight, and the recovery time since the last failure is over. -/
def Rested (g : Guard α) : Prop :=
  g.inFlight = 0 ∧ g.breaker.recovery < g.now - g.breaker.lastFailure

instance (g : Guard α) : Decidable g.Rested := inferInstanceAs (Decidable (_ ∧ _))

/-- No call is let in any more: all trials are taken, and none of them is left to decide. -/
structure Locked (g : Guard α) : Prop where
  idle : g.inFlight = 0
  probing : g.breaker.state = .probing
  taken : g.breaker.maxTrials ≤ g.breaker.trials

end Guard

variable {α : Type}

/-! ## What the breaker does with one call -/

theorem tryTrial_cases (b : Breaker α) :
    b.maxTrials ≤ b.trials ∧ b.tryTrial = (b, some .trialsTaken) ∨
      b.trials < b.maxTrials ∧ b.tryTrial = ({ b with trials := b.trials + 1 }, none) := by
  unfold tryTrial
  split
  · rename_i h; exact Or.inl ⟨h, rfl⟩
  · rename_i h; exact Or.inr ⟨Nat.lt_of_not_le h, rfl⟩

/-- An entry is free, comes too early, is the first trial after the recovery time or a later one. -/
theorem enter_cases [Duration α] (b : Breaker α) (now : α) :
    b.state = .closed ∧ b.enter now = (b, none) ∨
      b.state = .tripped ∧ b.isCooling now = true ∧ b.enter now = (b, some .cooling) ∨
      b.state = .tripped ∧ b.isCooling now = false ∧
        b.enter now = { b with state := .probing, trials := 0 }.tryTrial ∨
      b.state = .probing ∧ b.enter now = b.tryTrial := by
  unfold enter
  cases hstate : b.state with
  | closed => simp
  | tripped => cases hcool : b.isCooling now <;> simp
  | probing => simp

theorem fail_of_lt {b : Breaker α} (now : α) (h : b.failures + 1 < b.threshold) :
    b.fail now = { b with failures := b.failures + 1, lastFailure := now } := by
  simp [fail, Nat.not_le_of_lt h]

theorem fail_of_le {b : Breaker α} (now : α) (h : b.threshold ≤ b.failures + 1) :
    b.fail now =
      { b with failures := b.failures + 1, lastFailure := now, state := .tripped } := by
  simp [fail, h]

namespace Guard

/-! ## Trials that have not been decided -/

/-- While a breaker is probing, a trial is on its way or has failed. As long as no failure has
come in, all of them are on their way. -/
structure Tracked (threshold maxTrials : Nat) (g : Guard α) : Prop where
  threshold_eq : g.breaker.threshold = threshold
  maxTrials_eq : g.breaker.maxTrials = maxTrials
  probing : g.breaker.state = .probing → 1 ≤ g.breaker.trials ∧
    (g.breaker.trials ≤ g.inFlight ∨
      g.breaker.failures < threshold ∧ g.breaker.trials ≤ g.breaker.failures + g.inFlight)

variable {threshold maxTrials : Nat} {g : Guard α}

/-- With no call in flight, all trials have failed, and too few of them to trip the breaker. -/
theorem Tracked.trials_le (h : Tracked threshold maxTrials g) (hidle : g.inFlight = 0)
    (hs : g.breaker.state = .probing) :
    g.breaker.trials ≤ g.breaker.failures ∧ g.breaker.failures < threshold := by
  obtain ⟨hone, hcount⟩ := h.probing hs
  omega

variable [Duration α]

theorem tracked_fresh (threshold maxTrials : Nat) (recovery start : α) :
    Tracked threshold maxTrials (fresh threshold recovery maxTrials start) :=
  ⟨rfl, rfl, nofun⟩

theorem Tracked.enter (h : Tracked threshold maxTrials g) (hmax : 1 ≤ maxTrials) :
    Tracked threshold maxTrials (g.step .enter) := by
  obtain ⟨hthreshold, htrials, hprobing⟩ := h
  unfold step
  obtain ⟨hs, he⟩ | ⟨hs, -, he⟩ | ⟨hs, -, he⟩ | ⟨hs, he⟩ := enter_cases g.breaker g.now
  · rw [he]
    exact ⟨hthreshold, htrials, fun hp => absurd (hs.symm.trans hp) (by decide)⟩
  · rw [he]
    exact ⟨hthreshold, htrials, fun hp => absurd (hs.symm.trans hp) (by decide)⟩
  · -- the first trial after the recovery time is on its way
    have hfree : 0 < g.breaker.maxTrials := by omega
    rw [he, tryTrial, if_neg (Nat.not_le_of_lt hfree)]
    exact ⟨hthreshold, htrials, fun _ => ⟨Nat.le_refl 1, Or.inl (by simp)⟩⟩
  · obtain ⟨hone, hcount⟩ := hprobing hs
    obtain ⟨-, ht⟩ | ⟨-, ht⟩ := tryTrial_cases g.breaker
    · rw [he, ht]
      exact ⟨hthreshold, htrials, fun _ => ⟨hone, hcount⟩⟩
    · rw [he, ht]
      refine ⟨hthreshold, htrials, fun _ => ⟨by simp, ?_⟩⟩
      simp only
      omega

theorem Tracked.exit (h : Tracked threshold maxTrials g) (ok : Bool) :
    Tracked threshold maxTrials (g.step (.exit ok)) := by
  unfold step
  cases hcalls : g.inFlight with
  | zero => exact h
  | succ n =>
    obtain ⟨hthreshold, htrials, hprobing⟩ := h
    rw [hcalls] at hprobing
    cases ok with
    | true =>
      -- a trial that succeeds closes the breaker
      simp only [Breaker.exit, if_true, succeed]
      cases hs : g.breaker.state with
      | probing | closed | tripped => exact ⟨hthreshold, htrials, nofun⟩
    | false =>
      simp only [Breaker.exit, Bool.false_eq_true, if_false]
      by_cases hlt : g.breaker.failures + 1 < threshold
      · rw [fail_of_lt g.now (hthreshold ▸ hlt)]
        refine ⟨hthreshold, htrials, fun hp => ?_⟩
        obtain ⟨hone, hcount⟩ := hprobing hp
        refine ⟨hone, Or.inr ⟨hlt, ?_⟩⟩
        simp only
        omega
      · rw [fail_of_le g.now (by omega)]
        exact ⟨hthreshold, htrials, nofun⟩

theorem Tracked.step (h : Tracked threshold maxTrials g) (hmax : 1 ≤ maxTrials)
    (e : Event α) : Tracked threshold maxTrials (g.step e) := by
  cases e with
  | enter => exact h.enter hmax
  | exit ok => exact h.exit ok
  | wait span => exact ⟨h.threshold_eq, h.maxTrials_eq, h.probing⟩

theorem Tracked.run (h : Tracked threshold maxTrials g) (hmax : 1 ≤ maxTrials)
    (events : List (Event α)) : Tracked threshold maxTrials (g.run events) := by
  induction events generalizing g with
  | nil => exact h
  | cons e events ih => exact ih (h.step hmax e)

theorem Tracked.admits_or_locked (h : Tracked threshold maxTrials g)
    (hmax : 1 ≤ maxTrials) (hidle : g.inFlight = 0) (hcool : g.breaker.isCooling g.now = false) :
    g.admits ∨ g.Locked := by
  unfold admits
  obtain ⟨-, he⟩ | ⟨-, hc, -⟩ | ⟨-, -, he⟩ | ⟨hs, he⟩ := enter_cases g.breaker g.now
  · exact Or.inl (by rw [he])
  · rw [hcool] at hc; cases hc
  · have hfree : 0 < g.breaker.maxTrials := h.maxTrials_eq ▸ hmax
    exact Or.inl (by rw [he, tryTrial, if_neg (Nat.not_le_of_lt hfree)])
  · obtain ⟨ht, -⟩ | ⟨-, ht⟩ := tryTrial_cases g.breaker
    · exact Or.inr ⟨hidle, hs, ht⟩
    · exact Or.inl (by rw [he, ht])

/-! ## Failures that nothing has taken off -/

/-- Whether no call succeeds while the breaker is tripped. -/
def Unrelieved (g : Guard α) : List (Event α) → Prop
  | [] => True
  | e :: events => (e = .exit true → g.breaker.state ≠ .tripped) ∧ (g.step e).Unrelieved events

/-- A breaker that is not closed has all the failures that tripped it. -/
def Loaded (g : Guard α) : Prop := g.breaker.state ≠ .closed → g.breaker.threshold ≤ g.breaker.failures

theorem Loaded.enter (h : g.Loaded) : (g.step .enter).Loaded := by
  unfold Guard.step
  obtain ⟨-, he⟩ | ⟨-, -, he⟩ | ⟨hs, -, he⟩ | ⟨hs, he⟩ := enter_cases g.breaker g.now
  · rw [he]; exact h
  · rw [he]; exact h
  · have hfull := h (by simp [hs])
    obtain ⟨-, ht⟩ | ⟨-, ht⟩ := tryTrial_cases { g.breaker with state := .probing, trials := 0 }
    · rw [he, ht]; exact fun _ => hfull
    · rw [he, ht]; exact fun _ => hfull
  · have hfull := h (by simp [hs])
    obtain ⟨-, ht⟩ | ⟨-, ht⟩ := tryTrial_cases g.breaker
    · rw [he, ht]; exact fun _ => hfull
    · rw [he, ht]; exact fun _ => hfull

theorem Loaded.exit (h : g.Loaded) (ok : Bool) (hlate : ok = true → g.breaker.state ≠ .tripped) :
    (g.step (.exit ok)).Loaded := by
  unfold Guard.step
  cases g.inFlight with
  | zero => exact h
  | succ n =>
    cases ok with
    | true =>
      simp only [Breaker.exit, if_true, succeed]
      cases hs : g.breaker.state with
      | closed => exact fun hne => absurd rfl hne
      | probing => exact fun hne => absurd rfl hne
      | tripped => exact absurd hs (hlate rfl)
    | false =>
      simp only [Breaker.exit, Bool.false_eq_true, if_false]
      by_cases hlt : g.breaker.failures + 1 < g.breaker.threshold
      · rw [fail_of_lt g.now hlt]
        intro hne
        have := h hne
        omega
      · rw [fail_of_le g.now (by omega)]
        intro _
        simp only
        omega

theorem Loaded.run (h : g.Loaded) {events : List (Event α)} (hfree : g.Unrelieved events) :
    (g.run events).Loaded := by
  induction events generalizing g with
  | nil => exact h
  | cons e events ih =>
    obtain ⟨hlate, hrest⟩ := hfree
    refine ih ?_ hrest
    cases e with
    | enter => exact h.enter
    | exit ok => exact h.exit ok fun hok => hlate (by rw [hok])
    | wait span => exact h

omit [Duration α] in
theorem Loaded.not_locked (h : g.Loaded) (htracked : Tracked threshold maxTrials g) :
    ¬ g.Locked := by
  intro hlocked
  have hfull := h (by simp [hlocked.probing])
  have hfew := (htracked.trials_le hlocked.idle hlocked.probing).2
  have := htracked.threshold_eq
  omega

/-! ## Locked for good -/

theorem Locked.enter_eq (h : g.Locked) : g.breaker.enter g.now = (g.breaker, some .trialsTaken) := by
  rw [enter, h.probing]
  simp only
  rw [tryTrial, if_pos h.taken]

theorem Locked.not_admits (h : g.Locked) : ¬ g.admits := by
  unfold admits
  rw [h.enter_eq]
  exact nofun

theorem Locked.step (h : g.Locked) (e : Event α) : (g.step e).Locked := by
  cases e with
  | enter =>
    have : g.step .enter = g := by rw [Guard.step, h.enter_eq]
    rw [this]; exact h
  | exit ok =>
    have : g.step (.exit ok) = g := by rw [Guard.step, h.idle]
    rw [this]; exact h
  | wait span => exact ⟨h.idle, h.probing, h.taken⟩

theorem Locked.run (h : g.Locked) (events : List (Event α)) : (g.run events).Locked := by
  induction events generalizing g with
  | nil => exact h
  | cons e events ih => exact ih (h.step e)

/-! ## A way to lock it -/

section Reaching

variable {g g' g'' : Guard Rat}

/-- Some calls and waits, none of which turns the clock back, lead from one state to another. -/
def Reaches (g g' : Guard Rat) : Prop :=
  ∃ events, (∀ span, .wait span ∈ events → 0 ≤ span) ∧ g.run events = g'

theorem Reaches.refl (g : Guard Rat) : Reaches g g := ⟨[], nofun, rfl⟩

theorem Reaches.trans (h : Reaches g g') (h' : Reaches g' g'') : Reaches g g'' := by
  obtain ⟨events, hspan, rfl⟩ := h
  obtain ⟨events', hspan', rfl⟩ := h'
  refine ⟨events ++ events', fun span hmem => ?_, List.foldl_append ..⟩
  exact (List.mem_append.mp hmem).elim (hspan span) (hspan' span)

theorem Reaches.enter (g : Guard Rat) : Reaches g (g.step .enter) := ⟨[.enter], by simp, rfl⟩

theorem Reaches.exit (g : Guard Rat) (ok : Bool) : Reaches g (g.step (.exit ok)) :=
  ⟨[.exit ok], by simp, rfl⟩

theorem Reaches.wait (g : Guard Rat) {span : Rat} (h : 0 ≤ span) : Reaches g (g.step (.wait span)) :=
  ⟨[.wait span], by simp [h], rfl⟩

variable {b : Breaker Rat} {now : Rat}

theorem reaches_entered (hs : b.state = .closed) (n k : Nat) :
    Reaches ⟨b, now, n⟩ ⟨b, now, n + k⟩ := by
  induction k with
  | zero => exact .refl _
  | succ k ih =>
    have henter : Guard.step ⟨b, now, n + k⟩ .enter = ⟨b, now, n + (k + 1)⟩ := by
      simp [Guard.step, Breaker.enter, hs, Nat.add_assoc]
    exact henter ▸ ih.trans (.enter _)

theorem reaches_tripped (n k : Nat) (hk : b.failures + (k + 1) = b.threshold) :
    Reaches ⟨b, now, n + (k + 1)⟩
      ⟨{ b with failures := b.threshold, lastFailure := now, state := .tripped }, now, n⟩ := by
  induction k generalizing b with
  | zero =>
    have hexit : Guard.step ⟨b, now, n + 1⟩ (.exit false) = ⟨b.fail now, now, n⟩ := rfl
    rw [fail_of_le now (by omega)] at hexit
    have hreach := Reaches.exit ⟨b, now, n + 1⟩ false
    rw [hexit] at hreach
    simpa [← hk] using hreach
  | succ k ih =>
    have hexit : Guard.step ⟨b, now, n + (k + 1 + 1)⟩ (.exit false) =
        ⟨b.fail now, now, n + (k + 1)⟩ := rfl
    rw [fail_of_lt now (by omega)] at hexit
    have hreach := Reaches.exit ⟨b, now, n + (k + 1 + 1)⟩ false
    rw [hexit] at hreach
    refine hreach.trans ?_
    exact ih (b := { b with failures := b.failures + 1, lastFailure := now }) (by simp only; omega)

theorem reaches_relieved (hs : b.state = .tripped) (n k : Nat) :
    Reaches ⟨b, now, n + k⟩ ⟨{ b with failures := b.failures - k }, now, n⟩ := by
  induction k generalizing b with
  | zero => exact .refl _
  | succ k ih =>
    have hexit : Guard.step ⟨b, now, n + (k + 1)⟩ (.exit true) =
        ⟨{ b with failures := b.failures - 1 }, now, n + k⟩ := by
      simp [Guard.step, Breaker.exit, succeed, hs]
    have hreach := Reaches.exit ⟨b, now, n + (k + 1)⟩ true
    rw [hexit] at hreach
    have := hreach.trans (ih (b := { b with failures := b.failures - 1 }) hs)
    simpa [Nat.sub_sub, Nat.add_comm] using this

theorem reaches_tried (hs : b.state = .probing) (hfree : b.trials < b.maxTrials)
    (hlt : b.failures + 1 < b.threshold) :
    Reaches ⟨b, now, 0⟩ ⟨{ b with
      trials := b.trials + 1, failures := b.failures + 1, lastFailure := now }, now, 0⟩ := by
  have henter : Guard.step ⟨b, now, 0⟩ .enter = ⟨{ b with trials := b.trials + 1 }, now, 1⟩ := by
    simp [Guard.step, Breaker.enter, hs, tryTrial, Nat.not_le_of_lt hfree]
  have hexit : Guard.step ⟨{ b with trials := b.trials + 1 }, now, 1⟩ (.exit false) =
      ⟨Breaker.fail { b with trials := b.trials + 1 } now, now, 0⟩ := rfl
  rw [fail_of_lt (b := { b with trials := b.trials + 1 }) now hlt] at hexit
  exact hexit ▸ (henter ▸ Reaches.enter ⟨b, now, 0⟩).trans (.exit _ false)

theorem reaches_taken (k : Nat) (hs : b.state = .probing) (hnow : b.lastFailure = now)
    (hfree : b.trials + k ≤ b.maxTrials) (hlt : b.failures + k < b.threshold) :
    Reaches ⟨b, now, 0⟩ ⟨{ b with trials := b.trials + k, failures := b.failures + k }, now, 0⟩ := by
  induction k generalizing b with
  | zero => exact .refl _
  | succ k ih =>
    have hnext := ih (b := { b with
      trials := b.trials + 1, failures := b.failures + 1, lastFailure := now }) hs rfl
      (by simp only; omega) (by simp only; omega)
    have := (reaches_tried hs (by omega) (by omega)).trans hnext
    simpa [Nat.add_assoc, Nat.add_comm 1 k, hnow] using this

theorem reaches_probed (hs : b.state = .tripped) (hcool : b.isCooling now = false)
    (hfree : 1 ≤ b.maxTrials) (hlt : b.failures + 1 < b.threshold) :
    Reaches ⟨b, now, 0⟩ ⟨{ b with
      state := .probing, trials := 1, failures := b.failures + 1, lastFailure := now }, now, 0⟩ := by
  have henter : Guard.step ⟨b, now, 0⟩ .enter =
      ⟨{ b with state := .probing, trials := 1 }, now, 1⟩ := by
    simp [Guard.step, Breaker.enter, hs, hcool, tryTrial, Nat.not_le_of_lt hfree]
  have hexit : Guard.step ⟨{ b with state := .probing, trials := 1 }, now, 1⟩ (.exit false) =
      ⟨Breaker.fail { b with state := .probing, trials := 1 } now, now, 0⟩ := rfl
  rw [fail_of_lt (b := { b with state := .probing, trials := 1 }) now hlt] at hexit
  exact hexit ▸ (henter ▸ Reaches.enter ⟨b, now, 0⟩).trans (.exit _ false)

theorem isCooling_eq_false_iff : b.isCooling now = false ↔ b.recovery < now - b.lastFailure := by
  unfold isCooling
  rw [decide_eq_false_iff_not]
  exact not_le

theorem lt_wait (r last : Rat) : r < last + (|r| + 1) - last := by
  have hspan : last + (|r| + 1) - last = |r| + 1 := add_sub_cancel_left ..
  rw [hspan]
  exact lt_of_le_of_lt (le_abs_self r) (lt_add_one _)

/-- A breaker that allows fewer trials than failures can be locked. -/
theorem reaches_locked {threshold maxTrials : Nat} (r start : Rat) (hmax : 1 ≤ maxTrials)
    (hfew : maxTrials < threshold) :
    ∃ g, Reaches (fresh threshold r maxTrials start) g ∧ g.Locked ∧ g.Rested := by
  obtain ⟨t, rfl⟩ : ∃ t, threshold = t + 1 := ⟨threshold - 1, by omega⟩
  obtain ⟨m, rfl⟩ : ∃ m, maxTrials = m + 1 := ⟨maxTrials - 1, by omega⟩
  have hspan : 0 ≤ |r| + 1 := by linarith [abs_nonneg r]
  let closed : Breaker Rat := .fresh (t + 1) r (m + 1)
  let tripped : Breaker Rat :=
    { closed with failures := t + 1, lastFailure := start, state := .tripped }
  let relieved : Breaker Rat := { tripped with failures := 0 }
  let later := start + (|r| + 1)
  let probing : Breaker Rat :=
    { relieved with state := .probing, trials := 1, failures := 1, lastFailure := later }
  -- twice as many calls as trip the breaker are let in, half of them fail and the others do not
  have hentered : Reaches ⟨closed, start, 0⟩ ⟨closed, start, t + 1 + (t + 1)⟩ := by
    have h : Reaches ⟨closed, start, 0⟩ ⟨closed, start, 0 + (t + 1 + (t + 1))⟩ :=
      reaches_entered rfl 0 _
    rwa [Nat.zero_add] at h
  have htripped : Reaches ⟨closed, start, t + 1 + (t + 1)⟩ ⟨tripped, start, t + 1⟩ :=
    reaches_tripped (t + 1) t (Nat.zero_add _)
  have hrelieved : Reaches ⟨tripped, start, t + 1⟩ ⟨relieved, start, 0⟩ := by
    have h : Reaches ⟨tripped, start, 0 + (t + 1)⟩
        ⟨{ tripped with failures := t + 1 - (t + 1) }, start, 0⟩ := reaches_relieved rfl 0 _
    rwa [Nat.zero_add, Nat.sub_self] at h
  have hwaited : Reaches ⟨relieved, start, 0⟩ ⟨relieved, later, 0⟩ := .wait _ hspan
  -- after the recovery time all trials fail, too few of them to trip the breaker again
  have hprobed : Reaches ⟨relieved, later, 0⟩ ⟨probing, later, 0⟩ :=
    reaches_probed rfl (isCooling_eq_false_iff.mpr (lt_wait r start)) hmax (by show 0 + 1 < t + 1; omega)
  have htaken : Reaches ⟨probing, later, 0⟩
      ⟨{ probing with trials := 1 + m, failures := 1 + m }, later, 0⟩ :=
    reaches_taken m rfl rfl (by show 1 + m ≤ m + 1; omega) (by show 1 + m < t + 1; omega)
  refine ⟨_, hentered.trans (htripped.trans (hrelieved.trans (hwaited.trans (hprobed.trans
    (htaken.trans (.wait _ hspan)))))), ⟨rfl, rfl, ?_⟩, rfl, lt_wait r later⟩
  show m + 1 ≤ 1 + m
  omega

end Reaching

end Guard

open Guard

/-- **Readmission.** Once no call is in flight and the recovery time since the last failure is
over, the next call is let in, if as many trials are allowed as failures, or if no call has succeeded
while the breaker was tripped. If fewer trials are allowed than failures, calls that overlap can lock
the breaker, and then no call is let in ever after. -/
theorem readmission (threshold maxTrials : Nat) (recovery start : Rat) (hmax : 1 ≤ maxTrials) :
    let g := Guard.fresh threshold recovery maxTrials start
    (∀ events, threshold ≤ maxTrials ∨ g.Unrelieved events →
      (g.run events).Rested → (g.run events).admits) ∧
    (maxTrials < threshold → ∃ events, (∀ span, .wait span ∈ events → 0 ≤ span) ∧
      (g.run events).Rested ∧ ∀ more, ¬ ((g.run events).run more).admits) := by
  intro g
  constructor
  · intro events hsafe hrested
    have htracked := (tracked_fresh threshold maxTrials recovery start).run hmax events
    have hcool : (g.run events).breaker.isCooling (g.run events).now = false :=
      isCooling_eq_false_iff.mpr hrested.2
    obtain hadmits | hlocked := htracked.admits_or_locked hmax hrested.1 hcool
    · exact hadmits
    · exfalso
      rcases hsafe with henough | hfree
      · -- all trials have failed, and so many failures would have tripped the breaker
        have hfew := htracked.trials_le hrested.1 hlocked.probing
        have htaken := hlocked.taken
        have hlimit := htracked.maxTrials_eq
        omega
      · have hloaded : g.Loaded := fun hne => absurd rfl hne
        exact (hloaded.run hfree).not_locked htracked hlocked
  · intro hfew
    obtain ⟨_, ⟨events, hforward, rfl⟩, hlocked, hrested⟩ := reaches_locked recovery start hmax hfew
    exact ⟨events, hforward, hrested, fun more => (hlocked.run more).not_admits⟩

/-- One call after the other: two fail, and the trial fails as well. -/
def failingCalls : List (Event Rat) :=
  [.enter, .exit false, .enter, .exit false, .wait 31, .enter, .exit false, .wait 31]

theorem readmission_one_trial :
    let g := Guard.fresh 2 (30 : Rat) 1 1000
    1 ≤ 1 ∧ (g.run failingCalls).admits ∧
      ∃ events, (g.run events).Rested ∧ ∀ more, ¬ ((g.run events).run more).admits := by
  intro g
  obtain ⟨hadmits, hlocked⟩ := readmission 2 1 30 1000 (Nat.le_refl 1)
  have hfree : g.Unrelieved failingCalls :=
    ⟨nofun, nofun, nofun, nofun, nofun, nofun, nofun, nofun, trivial⟩
  have hrested : (g.run failingCalls).Rested := by decide +kernel
  obtain ⟨events, -, hrest, hnever⟩ := hlocked (by decide)
  exact ⟨Nat.le_refl 1, hadmits failingCalls (Or.inr hfree) hrested, events, hrest, hnever⟩

/-- Four calls overlap. Two fail, the others succeed after that, and then the one trial fails. -/
def lockingCalls : List (Event Rat) :=
  [.enter, .enter, .enter, .enter, .exit false, .exit false, .exit true, .exit true, .wait 31,
   .enter, .exit false, .wait 31]

/-- A breaker that has rested lets no call in. -/
theorem not_readmitted :
    ¬ ∀ (threshold maxTrials : Nat) (recovery start : Rat) (events : List (Event Rat)),
      1 ≤ threshold → 1 ≤ maxTrials →
      let g := (Guard.fresh threshold recovery maxTrials start).run events
      g.Rested → g.admits := by
  intro hall
  have hrejected : ¬ ((Guard.fresh 2 (30 : Rat) 1 1000).run lockingCalls).admits := by
    decide +kernel
  have hrested : ((Guard.fresh 2 (30 : Rat) 1 1000).run lockingCalls).Rested := by decide +kernel
  exact hrejected (hall 2 1 30 1000 lockingCalls (by decide) (by decide) hrested)

end Breaker

end FieldSearch
