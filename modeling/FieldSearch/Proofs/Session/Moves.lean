import FieldSearch.Session.Step

/-!
# What a step of a session does

A step moves at most one call, which had not ended. What is displayed stays as it is, or the call
ends with an outcome that is shown, and then it is the latest search.
-/

namespace FieldSearch

def Call.outcome? (call : Call) : Option Outcome :=
  match call.stage with
  | .finished (.ok (.outcome o)) => some o
  | _ => none

/-- What the reader sees after an outcome has been shown. -/
def View.ofLast : Option Outcome → View
  | none => .idle
  | some o => if o.status = .restored then .cleared else .showing o.seq o.raw o.records

namespace Session

structure SameDisplay (s s' : Session) : Prop where
  published : s'.published = s.published
  view : s'.view = s.view
  lastQueried : s'.lastQueried = s.lastQueried

theorem SameDisplay.refl (s : Session) : SameDisplay s s := ⟨rfl, rfl, rfl⟩

/-- The call with this number moves on from `s`. If it ends with an outcome, this is the outcome of
the search that it is. -/
inductive Moves (s : Session) (id : Nat) (call : Call) (s' : Session) : Prop where
  | quiet (stage : Stage) :
      s'.calls = s.calls.modify id ({ · with stage }) → s'.latest = s.latest →
      SameDisplay s s' →
      (∀ o, stage = .finished (.ok (.outcome o)) →
        o.status.isPublished = false ∧ call.request = .trigger o.raw ∧ o.seq = call.seq) →
      Moves s id call s'
  | shown (o : Outcome) :
      s'.calls = s.calls.modify id ({ · with stage := .finished (.ok (.outcome o)) }) →
      s'.latest = s.latest → o.status.isPublished = true →
      call.request = .trigger o.raw → o.seq = call.seq → o.seq = s.latest →
      s'.published = s.published ++ [o] → s'.view = .ofLast (some o) →
      s'.lastQueried = (if o.status = .restored then s.lastQueried else some o.raw) →
      Moves s id call s'

variable {s s' : Session} {id : Nat} {call : Call}

theorem Moves.of_discovery {d : Discovery} (h : Moves { s with discovery := d } id call s') :
    Moves s id call s' := by
  cases h with
  | quiet stage hc hl hd ho => exact .quiet stage hc hl ⟨hd.1, hd.2, hd.3⟩ ho
  | shown o hc hl hp hr hs hn hpub hv hq => exact .shown o hc hl hp hr hs hn hpub hv hq

theorem Moves.send (h : Moves s id call s') (sender : Sender) (document : Text) :
    Moves s id call (s'.send sender document) := by
  cases h with
  | quiet stage hc hl hd ho => exact .quiet stage hc hl ⟨hd.1, hd.2, hd.3⟩ ho
  | shown o hc hl hp hr hs hn hpub hv hq => exact .shown o hc hl hp hr hs hn hpub hv hq

/-! ## Endings -/

theorem setStage_moves {stage : Stage} (h : ∀ o, stage ≠ .finished (.ok (.outcome o))) :
    Moves s id call (s.setStage id stage) :=
  .quiet stage rfl rfl ⟨rfl, rfl, rfl⟩ fun o ho => absurd ho (h o)

theorem finish_moves {result : Except Failure Answer} (h : ∀ o, result ≠ .ok (.outcome o)) :
    Moves s id call (s.finish id result) :=
  setStage_moves fun o ho => h o (Stage.finished.inj ho)

theorem conclude_moves {o : Outcome} (hr : call.request = .trigger o.raw) (hs : o.seq = call.seq)
    (hl : o.status.isPublished = true → o.seq = s.latest) :
    Moves s id call (s.conclude id o) := by
  unfold conclude publish
  cases hstatus : o.status with
  | restored =>
    have hp : o.status.isPublished = true := by rw [hstatus]; rfl
    refine .shown o rfl rfl hp hr hs (hl hp) rfl ?_ ?_
    · rw [View.ofLast, if_pos hstatus]; rfl
    · rw [if_pos hstatus]; rfl
  | results | noEligibleType =>
    have hp : o.status.isPublished = true := by rw [hstatus]; rfl
    have hne : o.status ≠ .restored := by rw [hstatus]; decide
    refine .shown o rfl rfl hp hr hs (hl hp) rfl ?_ ?_
    · rw [View.ofLast, if_neg hne]; rfl
    · rw [if_neg hne]; rfl
  | notAQuery | unavailable | stale =>
    refine .quiet _ rfl rfl ⟨rfl, rfl, rfl⟩ ?_
    rintro o' ho
    cases ho
    exact ⟨by rw [hstatus]; rfl, hr, hs⟩

theorem conclude_unpublished_moves {o : Outcome} (hr : call.request = .trigger o.raw)
    (hs : o.seq = call.seq) (hp : o.status.isPublished = false) :
    Moves s id call (s.conclude id o) :=
  conclude_moves hr hs fun h => by rw [hp] at h; cases h

/-! ## Calls that go on with the types, or without them -/

theorem current_moves {o : Outcome} (hr : call.request = .trigger o.raw) (hs : o.seq = call.seq) :
    Moves s id call (s.conclude id (s.current o)) := by
  unfold current
  split
  · rename_i h
    exact conclude_moves hr hs fun _ => of_decide_eq_true h
  · exact conclude_unpublished_moves hr hs rfl

theorem search_moves {raw : Text} (types : List DocumentType) (hr : call.request = .trigger raw) :
    Moves s id call (s.search id call.seq types raw) := by
  unfold search
  split
  · exact finish_moves fun o => nofun
  · exact current_moves hr rfl
  · split
    · exact finish_moves fun o => nofun
    · refine (setStage_moves ?_).send _ _
      intro o ho; cases ho

theorem proceed_moves (types : List DocumentType) : Moves s id call (s.proceed id types call) := by
  unfold proceed
  split
  · rename_i raw hr; exact search_moves types hr
  · refine finish_moves fun o ho => ?_
    cases ho
  · rename_i raw hr
    refine finish_moves fun o ho => ?_
    cases hd : s.searchFor types raw with
    | error c => rw [hd] at ho; cases ho
    | ok document => rw [hd] at ho; cases ho
  · refine finish_moves fun o ho => ?_
    cases ho

theorem giveUp_moves (f : Failure) : Moves s id call (s.giveUp id f call) := by
  unfold giveUp
  split
  · rename_i raw hr
    split
    · exact conclude_unpublished_moves hr rfl rfl
    · exact finish_moves fun o => nofun
  · split
    · exact finish_moves fun o => nofun
    · exact finish_moves fun o => nofun
  · exact finish_moves fun o => nofun
  · exact finish_moves fun o => nofun

theorem discover_moves : Moves s id call (s.discover id call) := by
  unfold discover
  generalize s.discovery.enroll = entry
  obtain ⟨discovery, admission⟩ := entry
  cases admission with
  | known types => exact (proceed_moves types).of_discovery
  | refused f => exact (giveUp_moves f).of_discovery
  | waiting n =>
    refine (setStage_moves ?_).of_discovery
    intro o ho; cases ho
  | opened n =>
    refine ((setStage_moves ?_).send _ _).of_discovery
    intro o ho; cases ho

/-! ## Steps -/

theorem start_moves (s : Session) (request : Request) :
    Moves (s.enter request).1 s.calls.length (s.enter request).2 (s.start request) := by
  unfold start
  cases request with
  | trigger raw =>
    simp only
    split
    · exact conclude_moves rfl rfl fun _ => rfl
    · split
      · exact discover_moves
      · exact conclude_unpublished_moves rfl rfl rfl
  | compile raw =>
    simp only
    split
    · exact discover_moves
    · exact finish_moves fun o => nofun
  | suggest raw => exact discover_moves
  | documentTypes => exact discover_moves

theorem receive_moves {raw : Text} (rootFields : List Text) (reply : Except Failure Json)
    (hr : call.request = .trigger raw) :
    Moves s id call (s.receive id call.seq raw rootFields reply) := by
  unfold receive
  split
  · exact finish_moves fun o => nofun
  · split
    · exact finish_moves fun o => nofun
    · exact conclude_unpublished_moves hr rfl rfl
  · split
    · rename_i hl
      split
      · exact finish_moves fun o => nofun
      · exact conclude_moves hr rfl fun _ => of_decide_eq_true hl
    · exact conclude_unpublished_moves hr rfl rfl

structure Still (s s' : Session) : Prop where
  calls : s'.calls = s.calls
  latest : s'.latest = s.latest
  display : SameDisplay s s'

theorem Still.refl (s : Session) : Still s s := ⟨rfl, rfl, .refl s⟩

def Advances (s s' : Session) : Prop :=
  ∃ id call, s.calls[id]? = some call ∧ call.stage.hasEnded = false ∧ Moves s id call s'

theorem answer_cases (s : Session) (sender : Sender) (reply : Except Failure Json) :
    Still s (s.answer sender reply) ∨ Advances s (s.answer sender reply) := by
  unfold answer
  cases sender with
  | flight n =>
    simp only
    generalize s.discovery.receive n reply = received
    obtain ⟨discovery, next⟩ := received
    cases next with
    | none => exact Or.inl ⟨rfl, rfl, ⟨rfl, rfl, rfl⟩⟩
    | some document => exact Or.inl ⟨rfl, rfl, ⟨rfl, rfl, rfl⟩⟩
  | call id =>
    simp only
    split
    · rename_i raw seq rootFields hcall
      have hmoves : Moves s id ⟨.trigger raw, seq, .searching rootFields⟩
          (s.receive id seq raw rootFields reply) := receive_moves rootFields reply rfl
      exact Or.inr ⟨id, _, hcall, rfl, hmoves⟩
    · exact Or.inl (.refl s)

theorem wake_cases (s : Session) (id : Nat) : Still s (s.wake id) ∨ Advances s (s.wake id) := by
  unfold wake
  cases hcall : s.calls[id]? with
  | none => exact Or.inl (.refl s)
  | some call =>
    simp only
    cases hending : s.ending? call with
    | none => exact Or.inl (.refl s)
    | some found =>
      obtain ⟨n, ending⟩ := found
      -- only a call that waits for the types has an ending to wake up to
      have hstage : call.stage.hasEnded = false := by
        unfold ending? at hending
        split at hending
        · rename_i hw; rw [hw]; rfl
        · cases hending
      refine Or.inr ⟨id, call, hcall, hstage, ?_⟩
      cases ending with
      | ok types => exact (proceed_moves types).of_discovery
      | error f => exact (giveUp_moves f).of_discovery

theorem cancel_cases (s : Session) (id : Nat) :
    Still s (s.cancel id) ∨ Advances s (s.cancel id) := by
  unfold cancel
  cases hcall : s.calls[id]? with
  | none => exact Or.inl (.refl s)
  | some call =>
    simp only [Option.map_some]
    split
    · rename_i n hstage
      refine Or.inr ⟨id, call, hcall, by rw [Option.some.inj hstage]; rfl, ?_⟩
      refine (setStage_moves ?_).of_discovery
      intro o ho; cases ho
    · rename_i rootFields hstage
      refine Or.inr ⟨id, call, hcall, by rw [Option.some.inj hstage]; rfl, setStage_moves ?_⟩
      intro o ho; cases ho
    · exact Or.inl (.refl s)

/-- **What a step can do.** Nothing moves, a call that had not ended moves on, or a call enters
and moves on at once. -/
theorem step_cases (s : Session) (e : Event) :
    Still s (s.step e) ∨ Advances s (s.step e) ∨
      ∃ request, Moves (s.enter request).1 s.calls.length (s.enter request).2 (s.step e) := by
  cases e with
  | start request => exact Or.inr (Or.inr ⟨request, start_moves s request⟩)
  | answer sender reply => exact (answer_cases s sender reply).imp_right Or.inl
  | wake id => exact (wake_cases s id).imp_right Or.inl
  | cancel id => exact (cancel_cases s id).imp_right Or.inl

/-- A call that has just entered stands behind the others and has not ended. A search has the
next number. -/
theorem enter_calls (s : Session) (request : Request) :
    (s.enter request).1.calls = s.calls ++ [(s.enter request).2] ∧
      (s.enter request).2.stage.hasEnded = false ∧ SameDisplay s (s.enter request).1 := by
  cases request <;> exact ⟨rfl, rfl, ⟨rfl, rfl, rfl⟩⟩

theorem enter_getElem? (s : Session) (request : Request) :
    (s.enter request).1.calls[s.calls.length]? = some (s.enter request).2 := by
  rw [(enter_calls s request).1, List.getElem?_concat_length]

end Session

end FieldSearch
