import FieldSearch.Proofs.Session.Discovery
import FieldSearch.Proofs.Session.Moves
import Mathlib.Data.List.Induction

/-!
# Failed flights

A flight that has failed remains the current one until the first call that waited for it goes, or
until a call that needs the types meets it. That call is told of the old failure and gives the
flight up. Every other call joins a flight under way or opens a new one.
-/

namespace FieldSearch

open GraphQL (typesDocument)

namespace Session

/-- The event makes a call go that waited for this flight, or makes a call meet it. -/
def Leaves (s : Session) (n : Nat) : Event → Prop
  | .start request => request.needsTypes = true
  | .wake id | .cancel id => ∃ call, s.calls[id]? = some call ∧ call.stage = .waiting n
  | .answer _ _ => False

/-- No event makes a call leave or meet this flight. -/
def Untouched (s : Session) (n : Nat) : List Event → Prop
  | [] => True
  | e :: events => ¬ s.Leaves n e ∧ (s.step e).Untouched n events

/-- The flight has failed in the course of these events, and no call has left or met it since. -/
def Unmet (pageSize : GraphQL.Value) (events : List Event) (n : Nat) (f : Failure) : Prop :=
  ∃ before e after, events = before ++ e :: after ∧
    (run { pageSize } before).discovery.IsRunning n ∧
    ((run { pageSize } before).step e).discovery.flights[n]? = some (.failed f) ∧
    ((run { pageSize } before).step e).Untouched n after

/-! ## How a call that needs the types starts -/

/-- The call waits for a flight that is under way. -/
structure Joins (s : Session) (request : Request) (n : Nat) : Prop where
  running : s.discovery.IsRunning n
  waits : ((s.step (.start request)).calls[s.calls.length]?).map Call.stage = some (.waiting n)
  sent : (s.step (.start request)).sent = s.sent

/-- The call waits for a new flight, which asks for the types. -/
structure Opens (s : Session) (request : Request) (n : Nat) : Prop where
  new : s.discovery.flights[n]? = none
  running : (s.step (.start request)).discovery.IsRunning n
  waits : ((s.step (.start request)).calls[s.calls.length]?).map Call.stage = some (.waiting n)
  sent : (s.step (.start request)).sent = s.sent ++ [(.flight n, typesDocument)]

/-- The call ends at once with an old failure, and the flight that has failed is given up. -/
def Refused (s : Session) (request : Request) (f : Failure) : Prop :=
  s.step (.start request) =
    giveUp { (s.enter request).1 with discovery := { s.discovery with current := none } }
      s.calls.length f (s.enter request).2

variable {s : Session} {n : Nat} {f : Failure}

theorem stage_setStage (s : Session) (request : Request) (d : Discovery) (stage : Stage) :
    ((setStage { (s.enter request).1 with discovery := d } s.calls.length stage).calls[
      s.calls.length]?).map Call.stage = some stage := by
  simp only [setStage, List.getElem?_modify_eq, enter_getElem?]
  rfl

theorem enroll_of_failed {d : Discovery} (hsound : d.Sound) (hcurrent : d.current = some n)
    (hfailed : d.flights[n]? = some (.failed f)) :
    d.enroll = ({ d with current := none }, .refused f) := by
  have htypes := hsound.types_eq_none_of_failed hcurrent hfailed
  simp [Discovery.enroll, htypes, hcurrent, hfailed]

theorem refused_of_failed (hsound : s.discovery.Sound) {request : Request}
    (hneeds : request.needsTypes = true) (hcurrent : s.discovery.current = some n)
    (hfailed : s.discovery.flights[n]? = some (.failed f)) : Refused s request f := by
  rw [Refused, Session.step, start_of_needsTypes hneeds, discover, enter_discovery,
    enroll_of_failed hsound hcurrent hfailed]

theorem start_cases (hsound : s.discovery.Sound) {request : Request}
    (hneeds : request.needsTypes = true) (htypes : s.discovery.types = none) :
    (∃ n, Joins s request n) ∨ (∃ n, Opens s request n) ∨
      ∃ n f, s.discovery.current = some n ∧ s.discovery.flights[n]? = some (.failed f) := by
  have hstart : s.step (.start request) = s.start request := rfl
  have henroll := hsound.enroll_cases
  generalize hentry : s.discovery.enroll = entry at henroll
  obtain ⟨d, admission⟩ := entry
  have hdiscover := start_of_needsTypes (s := s) hneeds
  rw [discover, enter_discovery, hentry] at hdiscover
  cases henroll with
  | known types hknown => exact absurd (htypes.symm.trans hknown) nofun
  | opened _ hcurrent =>
    refine Or.inr (Or.inl ⟨_, List.getElem?_eq_none (Nat.le_refl _), ?_, ?_, ?_⟩)
    · rw [hstart, hdiscover]
      exact ⟨.listing, by simp, rfl⟩
    · rw [hstart, hdiscover]
      exact stage_setStage s request _ _
    · rw [hstart, hdiscover]
      simp
  | refused n f _ hcurrent hfailed =>
    exact Or.inr (Or.inr ⟨n, f, hcurrent, hfailed⟩)
  | waiting n _ hcurrent hrun =>
    refine Or.inl ⟨n, hrun, ?_, ?_⟩
    · rw [hstart, hdiscover]
      exact stage_setStage s request _ _
    · rw [hstart, hdiscover]
      simp

/-! ## When a failed flight is given up -/

theorem leave_of_ne {d : Discovery} {m : Nat} (hcurrent : d.current = some n) (hm : m ≠ n) :
    (d.leave m).current = some n := by
  obtain h | ⟨f, hcurrent', -⟩ := d.leave_cases m
  · rw [h, hcurrent]
  · exact absurd (Option.some.inj (hcurrent'.symm.trans hcurrent)) hm

theorem leave_of_failed {d : Discovery} (hfailed : d.flights[n]? = some (.failed f)) :
    (d.leave n).current ≠ some n := by
  unfold Discovery.leave
  rw [hfailed]
  simp only
  split
  · exact nofun
  · assumption

theorem wake_discovery (s : Session) (id : Nat) :
    (∃ call m, s.calls[id]? = some call ∧ call.stage = .waiting m ∧
        (s.wake id).discovery = s.discovery.leave m) ∨
      (s.wake id).discovery = s.discovery ∧ ∀ call m, s.calls[id]? = some call →
        call.stage = .waiting m → s.discovery.ending? m = none := by
  unfold wake
  split
  · rename_i hcall
    exact Or.inr ⟨rfl, fun call m h => absurd (hcall.symm.trans h) nofun⟩
  · rename_i call hcall
    split
    · rename_i hending
      refine Or.inr ⟨rfl, fun call' m h hstage => ?_⟩
      rw [hcall] at h
      cases h
      simpa [ending?, hstage] using hending
    · rename_i m ending hending
      refine Or.inl ⟨call, m, hcall, (ending?_eq_some hending).1, ?_⟩
      split <;> simp

theorem cancel_discovery (s : Session) (id : Nat) :
    (∃ call m, s.calls[id]? = some call ∧ call.stage = .waiting m ∧
        (s.cancel id).discovery = s.discovery.leave m) ∨
      (s.cancel id).discovery = s.discovery ∧
        ∀ call m, s.calls[id]? = some call → call.stage ≠ .waiting m := by
  unfold cancel
  cases hcall : s.calls[id]? with
  | none =>
    refine Or.inr ⟨rfl, fun call m h => ?_⟩
    cases h
  | some call =>
    cases hstage : call.stage with
    | waiting m => exact Or.inl ⟨call, m, rfl, hstage, by simp [hstage]⟩
    | starting | searching _ | finished _ | cancelled =>
      refine Or.inr ⟨by simp [hstage], fun call' m h => ?_⟩
      cases h
      rw [hstage]
      exact nofun

theorem current_step_iff (hsound : s.discovery.Sound) (hcurrent : s.discovery.current = some n)
    (hfailed : s.discovery.flights[n]? = some (.failed f)) (e : Event) :
    (s.step e).discovery.current = some n ↔ ¬ s.Leaves n e := by
  have hgone : ∀ m, (s.discovery.leave m).current = some n ↔ m ≠ n := by
    intro m
    constructor
    · rintro h rfl
      exact leave_of_failed hfailed h
    · exact leave_of_ne hcurrent
  cases e with
  | start request =>
    simp only [Leaves, Session.step]
    by_cases hneeds : request.needsTypes = true
    · rw [start_of_needsTypes hneeds, discover, enter_discovery,
        enroll_of_failed hsound hcurrent hfailed, giveUp_discovery]
      simp [hneeds]
    · rw [(start_of_not_needsTypes (Bool.eq_false_iff.mpr hneeds)).1, hcurrent]
      simp [hneeds]
  | answer sender reply =>
    simp only [Leaves, not_false_eq_true, iff_true, Session.step]
    cases sender with
    | flight m =>
      -- the flight that takes the reply is another one, since this one is no longer under way
      have hidle : ¬ s.discovery.IsRunning m := by
        intro hrun
        have hm := Option.some.inj ((hsound.running m hrun).symm.trans hcurrent)
        subst hm
        exact Discovery.not_isRunning_of_eq hfailed rfl hrun
      obtain ⟨documents, hanswer, -⟩ := answer_flight s m reply
      rw [hanswer, ((s.discovery.receive_cases m reply).of_not_running hidle).1, hcurrent]
    | call id =>
      unfold answer
      simp only
      split
      · rw [receive_discovery, hcurrent]
      · exact hcurrent
  | wake id =>
    obtain ⟨call, m, hcall, hstage, hleave⟩ | ⟨hsame, hending⟩ := s.wake_discovery id
    · rw [Session.step, hleave, hgone]
      simp [Leaves, hcall, hstage]
    · rw [Session.step, hsame, hcurrent]
      refine ⟨fun _ => ?_, fun _ => rfl⟩
      rintro ⟨call, hcall, hstage⟩
      have hnone := hending call n hcall hstage
      rw [Discovery.ending?, hfailed] at hnone
      cases hnone
  | cancel id =>
    obtain ⟨call, m, hcall, hstage, hleave⟩ | ⟨hsame, hstage⟩ := s.cancel_discovery id
    · rw [Session.step, hleave, hgone]
      simp [Leaves, hcall, hstage]
    · rw [Session.step, hsame, hcurrent]
      refine ⟨fun _ => ?_, fun _ => rfl⟩
      rintro ⟨call, hcall, hwait⟩
      exact hstage call n hcall hwait

theorem current_of_step (hsound : s.discovery.Sound) (hlt : n < s.discovery.flights.length)
    (e : Event) (h : (s.step e).discovery.current = some n) : s.discovery.current = some n := by
  obtain ⟨documents, hevolves, -⟩ := step_evolves hsound e
  generalize (s.step e).discovery = d at hevolves h
  cases hevolves with
  | same => exact h
  | launched => exact absurd (Option.some.inj h) (Nat.ne_of_gt hlt)
  | dropped => cases h
  | received m reply d' next hreceived => rwa [hreceived.current_eq] at h

theorem current_of_run (hsound : s.discovery.Sound) (hlt : n < s.discovery.flights.length)
    (events : List Event) (h : (s.run events).discovery.current = some n) :
    s.discovery.current = some n := by
  induction events generalizing s with
  | nil => exact h
  | cons e events ih =>
    have hlt' := Nat.lt_of_lt_of_le hlt (step_grows hsound e).length_le
    exact current_of_step hsound hlt e (ih (step_sound hsound e) hlt' h)

theorem current_run_iff (hsound : s.discovery.Sound) (hcurrent : s.discovery.current = some n)
    (hfailed : s.discovery.flights[n]? = some (.failed f)) (events : List Event) :
    (s.run events).discovery.current = some n ↔ s.Untouched n events := by
  induction events generalizing s with
  | nil => exact iff_of_true hcurrent trivial
  | cons e events ih =>
    have hsound' := step_sound hsound e
    have hfailed' := (step_grows hsound e).failed n f hfailed
    have hstep := current_step_iff hsound hcurrent hfailed e
    constructor
    · intro h
      have hstays := current_of_run hsound' (List.getElem?_eq_some_iff.mp hfailed').1 events h
      exact ⟨hstep.mp hstays, (ih hsound' hstays hfailed').mp h⟩
    · rintro ⟨hleaves, huntouched⟩
      exact (ih hsound' (hstep.mpr hleaves) hfailed').mpr huntouched

/-! ## Failed flights that nobody has met -/

theorem current_of_failing (hsound : s.discovery.Sound) (hrun : s.discovery.IsRunning n) (e : Event)
    (hfailed : (s.step e).discovery.flights[n]? = some (.failed f)) :
    (s.step e).discovery.current = some n := by
  obtain ⟨documents, hevolves, -⟩ := step_evolves hsound e
  generalize (s.step e).discovery = d at hevolves hfailed
  cases hevolves with
  | same => exact hsound.running n hrun
  | launched _ hcurrent => exact absurd (hcurrent.symm.trans (hsound.running n hrun)) nofun
  | dropped => exact absurd hrun (Discovery.not_isRunning_of_eq hfailed rfl)
  | received m reply d' next hreceived =>
    rw [hreceived.current_eq]
    exact hsound.running n hrun

theorem running_of_failing (hsound : s.discovery.Sound) (e : Event)
    (hfailed : (s.step e).discovery.flights[n]? = some (.failed f))
    (hbefore : s.discovery.flights[n]? ≠ some (.failed f)) : s.discovery.IsRunning n := by
  obtain ⟨documents, hevolves, -⟩ := step_evolves hsound e
  generalize (s.step e).discovery = d at hevolves hfailed
  cases hevolves with
  | same | dropped => exact absurd hfailed hbefore
  | launched =>
    rw [Discovery.getElem?_launch] at hfailed
    split at hfailed
    · cases hfailed
    · exact absurd hfailed hbefore
  | received m reply d' next hreceived =>
    by_cases hm : m = n
    · subst hm
      by_cases hrun : s.discovery.IsRunning m
      · exact hrun
      · rw [(hreceived.of_not_running hrun).1] at hfailed
        exact absurd hfailed hbefore
    · rw [hreceived.getElem?_ne hm] at hfailed
      exact absurd hfailed hbefore

theorem Unmet.current {pageSize : GraphQL.Value} {events : List Event}
    (h : Unmet pageSize events n f) :
    (run { pageSize } events).discovery.current = some n ∧
      (run { pageSize } events).discovery.flights[n]? = some (.failed f) := by
  obtain ⟨before, e, after, rfl, hrun, hfailed, huntouched⟩ := h
  have hsound := (charted pageSize before).sound
  have hsound' := step_sound hsound e
  have hcurrent := current_of_failing hsound hrun e hfailed
  rw [run_append]
  exact ⟨(current_run_iff hsound' hcurrent hfailed after).mpr huntouched,
    (run_grows hsound' after).failed n f hfailed⟩

theorem unmet_of_current {pageSize : GraphQL.Value} {events : List Event}
    (hcurrent : (run { pageSize } events).discovery.current = some n)
    (hfailed : (run { pageSize } events).discovery.flights[n]? = some (.failed f)) :
    Unmet pageSize events n f := by
  induction events using List.reverseRecOn with
  | nil => cases hcurrent
  | append_singleton events e ih =>
    have hsound := (charted pageSize events).sound
    rw [run_concat] at hcurrent hfailed
    by_cases hbefore : (run { pageSize } events).discovery.flights[n]? = some (.failed f)
    · -- it had failed before, so only the last event is new to the ones that left it alone
      have hlt := (List.getElem?_eq_some_iff.mp hbefore).1
      obtain ⟨before, e', after, rfl, hrun, hfailed', -⟩ :=
        ih (current_of_step hsound hlt e hcurrent) hbefore
      have hsound' := (charted pageSize before).sound
      have hcurrent' := current_of_failing hsound' hrun e' hfailed'
      refine ⟨before, e', after ++ [e], by simp, hrun, hfailed', ?_⟩
      rw [← current_run_iff (step_sound hsound' e') hcurrent' hfailed', run_concat]
      rwa [run_append] at hcurrent
    · exact ⟨events, e, [], rfl, running_of_failing hsound e hfailed hbefore, hfailed, trivial⟩

/-- **A failure is met at most once.** Without a failed flight that is still to be met, a call that
needs the types joins a flight under way or opens a new one. With one, it ends at once with the old
failure; from then on that failure is met by nobody. -/
theorem failure_met_once {pageSize : GraphQL.Value} {events : List Event} {request : Request}
    (hneeds : request.needsTypes = true)
    (htypes : (run { pageSize } events).discovery.types = none) :
    let s := run { pageSize } events
    ((¬ ∃ n f, Unmet pageSize events n f) →
      (∃ n, Joins s request n) ∨ ∃ n, Opens s request n) ∧
    ∀ n f, Unmet pageSize events n f → Refused s request f ∧
      ∀ more f', ¬ Unmet pageSize (events ++ .start request :: more) n f' := by
  intro s
  have hsound : s.discovery.Sound := (charted pageSize events).sound
  refine ⟨fun hmet => ?_, fun n f hunmet => ⟨?_, fun more f' hlater => ?_⟩⟩
  · obtain hjoins | hopens | ⟨n, f, hcurrent, hfailed⟩ := start_cases hsound hneeds htypes
    · exact Or.inl hjoins
    · exact Or.inr hopens
    · exact absurd ⟨n, f, unmet_of_current hcurrent hfailed⟩ hmet
  · obtain ⟨hcurrent, hfailed⟩ := hunmet.current
    exact refused_of_failed hsound hneeds hcurrent hfailed
  · obtain ⟨hcurrent, hfailed⟩ := hunmet.current
    have huntouched := hlater.current.1
    rw [run_append] at huntouched
    exact ((current_run_iff hsound hcurrent hfailed _).mp huntouched).1 hneeds

/-- A call opens a flight and is cancelled before the flight fails. -/
def abandoned (f : Failure) : List Event :=
  [.start .documentTypes, .cancel 0, .answer (.flight 0) (.error f)]

/-- The next call is told of the failure of the abandoned flight, and no later one is. -/
theorem failure_met_once_abandoned :
    Request.needsTypes .documentTypes = true ∧
    (run { pageSize := .int 50 } (abandoned (.ofCause (.network "boom")))).discovery.types = none ∧
    Unmet (.int 50) (abandoned (.ofCause (.network "boom"))) 0
      (.ofCause (.schema "Introspection request failed: boom")) ∧
    Refused (run { pageSize := .int 50 } (abandoned (.ofCause (.network "boom")))) .documentTypes
      (.ofCause (.schema "Introspection request failed: boom")) := by
  have hunmet : Unmet (.int 50) (abandoned (.ofCause (.network "boom"))) 0
      (.ofCause (.schema "Introspection request failed: boom")) :=
    ⟨[.start .documentTypes, .cancel 0], _, [], rfl, ⟨.listing, rfl, rfl⟩, rfl, trivial⟩
  exact ⟨rfl, rfl, hunmet, ((failure_met_once rfl rfl).2 _ _ hunmet).1⟩

/-- It is not so that every call after a failure joins a flight under way or opens a new one. -/
theorem not_tried_again :
    ¬ ∀ (pageSize : Int) (events : List Event) (request : Request) (n : Nat) (f : Failure),
      request.needsTypes = true →
      (run { pageSize := .int pageSize } events).discovery.types = none →
      (run { pageSize := .int pageSize } events).discovery.flights[n]? = some (.failed f) →
      (∃ n, Joins (run { pageSize := .int pageSize } events) request n) ∨
        ∃ n, Opens (run { pageSize := .int pageSize } events) request n := by
  intro h
  obtain ⟨n, hjoins⟩ | ⟨n, hopens⟩ :=
    h 50 (abandoned (.ofCause (.network "boom"))) .documentTypes 0 _ rfl rfl rfl
  · cases hjoins.waits
  · cases hopens.waits

end Session

end FieldSearch
