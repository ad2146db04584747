import FieldSearch.Proofs.Session.Discovery
import FieldSearch.Proofs.Session.Moves

/-!
# Calls that go on

A call that has been started goes on in one of three ways: the reply to its document arrives, or it
wakes with the types, or it wakes without them. Every other step leaves it alone or cancels it.
-/

namespace FieldSearch.Session

variable {s : Session} {e : Event} {id : Nat}

/-- A call goes on: its reply arrives, or it wakes. -/
inductive Resumes (s : Session) (id : Nat) (call : Call) : Event → Session → Prop
  | replied (raw rootFields reply) : call = ⟨.trigger raw, call.seq, .searching rootFields⟩ →
      Resumes s id call (.answer (.call id) reply) (s.receive id call.seq raw rootFields reply)
  | awake (m : Nat) (types) : call.stage = .waiting m →
      s.discovery.flights[m]? = some (.landed types) →
      Resumes s id call (.wake id)
        (proceed { s with discovery := s.discovery.leave m } id types call)
  | refused (m : Nat) (f) : call.stage = .waiting m → s.discovery.flights[m]? = some (.failed f) →
      Resumes s id call (.wake id) (giveUp { s with discovery := s.discovery.leave m } id f call)

theorem Moves.stage_latest {s' : Session} {call : Call} {j : Nat} (h : Moves s j call s') :
    (∃ stage, s'.calls = s.calls.modify j ({ · with stage })) ∧ s'.latest = s.latest := by
  cases h with
  | quiet stage hcalls hlatest => exact ⟨⟨_, hcalls⟩, hlatest⟩
  | shown o hcalls hlatest => exact ⟨⟨_, hcalls⟩, hlatest⟩

theorem getElem?_of_moves {s' : Session} {call : Call} {j : Nat} (h : Moves s j call s')
    (hj : j ≠ id) : s'.calls[id]? = s.calls[id]? := by
  obtain ⟨stage, hcalls⟩ := h.stage_latest.1
  rw [hcalls, List.getElem?_modify_ne _ _ hj]

theorem getElem?_start {call : Call} (request : Request) (hcall : s.calls[id]? = some call) :
    (s.start request).calls[id]? = some call := by
  have hlt := (List.getElem?_eq_some_iff.mp hcall).1
  rw [getElem?_of_moves (start_moves s request) (Nat.ne_of_gt hlt), (enter_calls s request).1,
    List.getElem?_append_left hlt, hcall]

theorem step_fates {call : Call} (hcall : s.calls[id]? = some call) (e : Event) :
    Resumes s id call e (s.step e) ∨ (s.step e).calls[id]? = some call ∨
      (s.step e).calls[id]? = some { call with stage := .cancelled } := by
  cases e with
  | start request => exact Or.inr (Or.inl (getElem?_start request hcall))
  | answer sender reply =>
    cases sender with
    | flight m =>
      obtain ⟨documents, hanswer, -⟩ := answer_flight s m reply
      rw [Session.step, hanswer]
      exact Or.inr (Or.inl hcall)
    | call j =>
      simp only [Session.step, answer]
      split
      · rename_i raw seq rootFields hj
        by_cases hid : j = id
        · subst hid
          rw [hcall] at hj
          cases hj
          exact Or.inl (.replied raw rootFields reply rfl)
        · have hmoves : Moves s j ⟨.trigger raw, seq, .searching rootFields⟩
              (s.receive j seq raw rootFields reply) := receive_moves rootFields reply rfl
          exact Or.inr (Or.inl ((getElem?_of_moves hmoves hid).trans hcall))
      · exact Or.inr (Or.inl hcall)
  | wake j =>
    simp only [Session.step, wake]
    split
    · exact Or.inr (Or.inl hcall)
    · rename_i other hj
      split
      · exact Or.inr (Or.inl hcall)
      · rename_i m ending hending
        obtain ⟨hstage, hended⟩ := ending?_eq_some hending
        by_cases hid : j = id
        · subst hid
          rw [hcall] at hj
          cases hj
          cases ending with
          | ok types => exact Or.inl (.awake m types hstage (Discovery.ending?_eq_ok hended))
          | error f => exact Or.inl (.refused m f hstage (Discovery.ending?_eq_error hended))
        · cases ending with
          | ok types =>
            exact Or.inr (Or.inl
              ((getElem?_of_moves (proceed_moves types).of_discovery hid).trans hcall))
          | error f =>
            exact Or.inr (Or.inl
              ((getElem?_of_moves (giveUp_moves f).of_discovery hid).trans hcall))
  | cancel j =>
    have hset : ∀ t : Session, t.calls = s.calls →
        (t.setStage j .cancelled).calls[id]? = some call ∨
          (t.setStage j .cancelled).calls[id]? = some { call with stage := .cancelled } := by
      intro t ht
      by_cases hid : j = id
      · subst hid
        exact Or.inr (by simp [setStage, ht, hcall])
      · exact Or.inl (by rw [setStage, ht, List.getElem?_modify_ne _ _ hid, hcall])
    simp only [Session.step, cancel]
    split
    · exact Or.inr (hset _ rfl)
    · exact Or.inr (hset _ rfl)
    · exact Or.inr (Or.inl hcall)

theorem Resumes.moves {call : Call} {s' : Session} (h : Resumes s id call e s') :
    Moves s id call s' := by
  cases h with
  | replied raw rootFields reply hcall => exact receive_moves rootFields reply (by rw [hcall])
  | awake m types => exact (proceed_moves types).of_discovery
  | refused m f => exact (giveUp_moves f).of_discovery

end FieldSearch.Session
