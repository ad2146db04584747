import FieldSearch.Proofs.Session.Moves
import Mathlib.Data.List.Pairwise

/-!
# What a session publishes

Whatever happens to a session, and in whatever order, each search that ends with a shown outcome
is published once, at a moment when it is the latest, and the view is that of the last outcome
published. The invariant that carries this says that searches are numbered in the order of their
start and that the published outcomes are those of the calls that have ended with one.
-/

namespace FieldSearch

/-- Whether a search with this status has looked for documents. -/
def Status.isSearched : Status → Bool
  | .results | .noEligibleType => true
  | .notAQuery | .unavailable | .restored | .stale => false

def Call.isSearch (call : Call) : Prop := ∃ raw, call.request = .trigger raw

namespace Session

/-- The outcomes of all searches that have ended with one. -/
def outcomes (s : Session) : List Outcome := s.calls.filterMap Call.outcome?

def shownOutcomes (s : Session) : List Outcome := s.outcomes.filter (·.status.isPublished)

/-- The outcome of a call is published in this step, and no other call changes. -/
structure Publishes (s s' : Session) (id : Nat) (o : Outcome) : Prop where
  published : s'.published = s.published ++ [o]
  shown : o.status.isPublished = true
  latest : o.seq = s'.latest
  ended : (s'.calls[id]?).bind Call.outcome? = some o
  running : ∀ call, s.calls[id]? = some call → call.stage.hasEnded = false
  others : ∀ j, j ≠ id → s'.calls[j]? = s.calls[j]?

/-- Searches are numbered in the order of their start, and an outcome has the number and the text
of its search. -/
structure Numbered (s : Session) : Prop where
  increasing : s.calls.Pairwise fun a b => a.isSearch → b.isSearch → a.seq < b.seq
  bounded : ∀ call ∈ s.calls, call.seq ≤ s.latest
  own : ∀ call ∈ s.calls, ∀ o, call.outcome? = some o →
    call.request = .trigger o.raw ∧ o.seq = call.seq

structure Consistent (s : Session) : Prop extends Numbered s where
  complete : s.published.Perm s.shownOutcomes
  ordered : (s.published.map Outcome.seq).Pairwise (· < ·)
  view : s.view = .ofLast s.published.getLast?
  lastQueried : s.lastQueried =
    ((s.published.filter (·.status.isSearched)).getLast?).map Outcome.raw

theorem consistent_init (pageSize : GraphQL.Value) : Consistent { pageSize } := by
  refine ⟨⟨.nil, ?_, ?_⟩, .refl _, .nil, rfl, rfl⟩
  · intro call hcall; cases hcall
  · intro call hcall; cases hcall

/-! ## Calls that move -/

theorem outcome?_eq_none_of_running {call : Call} (h : call.stage.hasEnded = false) :
    call.outcome? = none := by
  unfold Call.outcome?
  split
  · rename_i hs; rw [hs] at h; cases h
  · rfl

theorem stage_of_outcome? {call : Call} {o : Outcome} (h : call.outcome? = some o) :
    call.stage = .finished (.ok (.outcome o)) := by
  unfold Call.outcome? at h
  split at h
  · rename_i o' hs; cases h; exact hs
  · cases h

theorem perm_outcomes_modify {calls : List Call} {id : Nat} {call : Call} (stage : Stage)
    (hcall : calls[id]? = some call) (hrun : call.stage.hasEnded = false) :
    ((calls.modify id ({ · with stage })).filterMap Call.outcome?).Perm
      ((Call.outcome? { call with stage }).toList ++ calls.filterMap Call.outcome?) := by
  induction calls generalizing id with
  | nil => cases hcall
  | cons c rest ih =>
    cases id with
    | zero =>
      cases hcall
      rw [List.modify_zero_cons, List.filterMap_cons, List.filterMap_cons,
        outcome?_eq_none_of_running hrun]
      cases Call.outcome? { call with stage } with
      | none => exact .refl _
      | some o => exact .refl _
    | succ id =>
      rw [List.modify_succ_cons, List.filterMap_cons, List.filterMap_cons]
      have hperm := ih hcall
      cases c.outcome? with
      | none => exact hperm
      | some o => exact (hperm.cons o).trans (List.perm_middle.symm)

theorem mem_modify_stage {calls : List Call} {id : Nat} {call c : Call} {stage : Stage}
    (hcall : calls[id]? = some call) (hc : c ∈ calls.modify id ({ · with stage })) :
    c ∈ calls ∨ c = { call with stage } := by
  obtain ⟨j, hj⟩ := List.mem_iff_getElem?.mp hc
  by_cases h : id = j
  · subst h
    rw [List.getElem?_modify_eq, hcall] at hj
    exact Or.inr (Option.some.inj hj).symm
  · rw [List.getElem?_modify_ne _ _ h] at hj
    exact Or.inl (List.mem_iff_getElem?.mpr ⟨j, hj⟩)

theorem map_request_modify (calls : List Call) (id : Nat) (stage : Stage) :
    (calls.modify id ({ · with stage })).map (fun c => (c.request, c.seq)) =
      calls.map fun c => (c.request, c.seq) := by
  induction calls generalizing id with
  | nil => cases id <;> rfl
  | cons c rest ih =>
    cases id with
    | zero => rfl
    | succ id => rw [List.modify_succ_cons, List.map_cons, List.map_cons, ih]

theorem increasing_modify {calls : List Call} (id : Nat) (stage : Stage)
    (h : calls.Pairwise fun a b => a.isSearch → b.isSearch → a.seq < b.seq) :
    (calls.modify id ({ · with stage })).Pairwise fun a b =>
      a.isSearch → b.isSearch → a.seq < b.seq := by
  -- the order is one of requests and numbers, which no stage touches
  let earlier (a b : Request × Nat) : Prop :=
    (∃ raw, a.1 = .trigger raw) → (∃ raw, b.1 = .trigger raw) → a.2 < b.2
  have hmap : (calls.map fun c => (c.request, c.seq)).Pairwise earlier := List.pairwise_map.mpr h
  rw [← map_request_modify calls id stage] at hmap
  exact List.pairwise_map.mp hmap

/-! ## Steps keep a session consistent -/

variable {s s' : Session} {id : Nat} {call : Call}

theorem Numbered.seq_ne (h : Numbered s) {a b : Call} (ha : a ∈ s.calls) (hb : b ∈ s.calls)
    (hsa : a.isSearch) (hsb : b.isSearch) (hne : a ≠ b) : a.seq ≠ b.seq := by
  have hpair : s.calls.Pairwise fun a b => a.isSearch → b.isSearch → a.seq ≠ b.seq :=
    h.increasing.imp fun hlt hsa hsb => Nat.ne_of_lt (hlt hsa hsb)
  have : Std.Symm fun a b : Call => a.isSearch → b.isSearch → a.seq ≠ b.seq :=
    ⟨fun _ _ hab hsb hsa => (hab hsa hsb).symm⟩
  exact hpair.forall ha hb hne hsa hsb

/-- Everything published belongs to a search before the latest one, as long as that is running. -/
theorem Consistent.published_lt (h : Consistent s) (hcall : s.calls[id]? = some call)
    (hrun : call.stage.hasEnded = false) (hsearch : call.isSearch) (hlatest : call.seq = s.latest) :
    ∀ o ∈ s.published, o.seq < s.latest := by
  intro o ho
  have hout : o ∈ s.outcomes := (List.mem_filter.mp (h.complete.mem_iff.mp ho)).1
  obtain ⟨c, hc, hco⟩ := List.mem_filterMap.mp hout
  obtain ⟨hr, hs⟩ := h.own c hc o hco
  have hne : c ≠ call := by
    rintro rfl
    rw [outcome?_eq_none_of_running hrun] at hco
    cases hco
  have hseq : c.seq ≠ call.seq :=
    h.seq_ne hc (List.mem_of_getElem? hcall) ⟨o.raw, hr⟩ hsearch hne
  have := h.bounded c hc
  omega

theorem Numbered.enter (h : Numbered s) (request : Request) : Numbered (s.enter request).1 := by
  obtain ⟨hcalls, hrun, -⟩ := enter_calls s request
  refine ⟨?_, ?_, ?_⟩
  · rw [hcalls]
    refine List.pairwise_append.mpr ⟨h.increasing, List.pairwise_singleton _ _, ?_⟩
    intro a ha b hb _ hsearch
    have := h.bounded a ha
    rw [List.mem_singleton.mp hb] at hsearch ⊢
    cases request with
    | trigger raw => exact Nat.lt_succ_of_le this
    | suggest _ | compile _ | documentTypes => obtain ⟨raw, hraw⟩ := hsearch; cases hraw
  · rw [hcalls]
    intro c hc
    rcases List.mem_append.mp hc with hc | hc
    · have := h.bounded c hc
      cases request with
      | trigger _ => exact Nat.le_succ_of_le this
      | suggest _ | compile _ | documentTypes => exact this
    · rw [List.mem_singleton.mp hc]
      cases request with
      | trigger _ => exact Nat.le_refl _
      | suggest _ | compile _ | documentTypes => exact Nat.zero_le _
  · rw [hcalls]
    intro c hc o ho
    rcases List.mem_append.mp hc with hc | hc
    · exact h.own c hc o ho
    · rw [List.mem_singleton.mp hc, outcome?_eq_none_of_running hrun] at ho; cases ho

theorem Consistent.enter (h : Consistent s) (request : Request) :
    Consistent (s.enter request).1 := by
  obtain ⟨hcalls, hrun, hshow⟩ := enter_calls s request
  have hout : (s.enter request).1.shownOutcomes = s.shownOutcomes := by
    rw [shownOutcomes, outcomes, hcalls, List.filterMap_append, List.filterMap_cons,
      outcome?_eq_none_of_running hrun, List.filterMap_nil, List.append_nil]
    rfl
  refine ⟨h.toNumbered.enter request, ?_, ?_, ?_, ?_⟩
  · rw [hout, hshow.published]; exact h.complete
  · rw [hshow.published]; exact h.ordered
  · rw [hshow.view, hshow.published]; exact h.view
  · rw [hshow.lastQueried, hshow.published]; exact h.lastQueried

theorem Numbered.moves (h : Numbered s) (hcall : s.calls[id]? = some call)
    (hmoves : Moves s id call s') : Numbered s' := by
  obtain ⟨stage, hcalls, hlatest, hout⟩ : ∃ stage,
      s'.calls = s.calls.modify id ({ · with stage }) ∧ s'.latest = s.latest ∧
      ∀ o, stage = .finished (.ok (.outcome o)) →
        call.request = .trigger o.raw ∧ o.seq = call.seq := by
    cases hmoves with
    | quiet stage hcalls hlatest _ hout => exact ⟨stage, hcalls, hlatest, fun o ho => (hout o ho).2⟩
    | shown o hcalls hlatest _ hr hs =>
      exact ⟨_, hcalls, hlatest, fun o' ho => by cases ho; exact ⟨hr, hs⟩⟩
  refine ⟨?_, ?_, ?_⟩
  · rw [hcalls]; exact increasing_modify id stage h.increasing
  · rw [hcalls, hlatest]
    intro c hc
    obtain hc | rfl := mem_modify_stage hcall hc
    · exact h.bounded c hc
    · exact h.bounded call (List.mem_of_getElem? hcall)
  · rw [hcalls]
    intro c hc o ho
    obtain hc | rfl := mem_modify_stage hcall hc
    · exact h.own c hc o ho
    · exact hout o (stage_of_outcome? ho)

theorem isSearched_iff {status : Status} (h : status.isPublished = true) :
    status.isSearched = true ↔ status ≠ .restored := by
  cases status <;> simp_all [Status.isSearched, Status.isPublished]

theorem perm_shownOutcomes {stage : Stage} (hcall : s.calls[id]? = some call)
    (hrun : call.stage.hasEnded = false)
    (hcalls : s'.calls = s.calls.modify id ({ · with stage })) :
    s'.shownOutcomes.Perm
      ((Call.outcome? { call with stage }).toList.filter (·.status.isPublished) ++
        s.shownOutcomes) := by
  have hperm := (perm_outcomes_modify stage hcall hrun).filter (·.status.isPublished)
  rwa [← hcalls, List.filter_append] at hperm

theorem Consistent.moves (h : Consistent s) (hcall : s.calls[id]? = some call)
    (hrun : call.stage.hasEnded = false) (hmoves : Moves s id call s') : Consistent s' := by
  have hnum := h.toNumbered.moves hcall hmoves
  cases hmoves with
  | quiet stage hcalls _ hshow hout =>
    have hperm := perm_shownOutcomes hcall hrun hcalls
    have hnone : (Call.outcome? { call with stage }).toList.filter (·.status.isPublished) = [] := by
      rw [List.filter_eq_nil_iff]
      intro o ho
      have := (hout o (stage_of_outcome? (Option.mem_toList.mp ho))).1
      rw [this]; decide
    rw [hnone, List.nil_append] at hperm
    refine ⟨hnum, ?_, ?_, ?_, ?_⟩
    · rw [hshow.published]; exact h.complete.trans hperm.symm
    · rw [hshow.published]; exact h.ordered
    · rw [hshow.view, hshow.published]; exact h.view
    · rw [hshow.lastQueried, hshow.published]; exact h.lastQueried
  | shown o hcalls _ hp hr hs hn hpub hview hquery =>
    have hperm : s'.shownOutcomes.Perm ([o].filter (·.status.isPublished) ++ s.shownOutcomes) :=
      perm_shownOutcomes hcall hrun hcalls
    have hone : [o].filter (·.status.isPublished) = [o] := by simp [hp]
    -- the number of the outcome is the latest one, so it is above all that have been published
    have hlt := h.published_lt hcall hrun ⟨o.raw, hr⟩ (hs.symm.trans hn)
    refine ⟨hnum, ?_, ?_, ?_, ?_⟩
    · rw [hpub]
      rw [hone] at hperm
      exact ((List.perm_append_singleton o s.published).trans (h.complete.cons o)).trans hperm.symm
    · rw [hpub, List.map_append]
      refine List.pairwise_append.mpr ⟨h.ordered, List.pairwise_singleton _ _, ?_⟩
      intro a ha b hb
      obtain ⟨p, hp', rfl⟩ := List.mem_map.mp ha
      obtain rfl := List.mem_singleton.mp hb
      rw [hn]; exact hlt p hp'
    · rw [hview, hpub, List.getLast?_concat]
    · rw [hquery, hpub, List.filter_append, h.lastQueried]
      by_cases hres : o.status = .restored
      · have : [o].filter (·.status.isSearched) = [] := by simp [hres, Status.isSearched]
        rw [if_pos hres, this, List.append_nil]
      · have : [o].filter (·.status.isSearched) = [o] := by simp [(isSearched_iff hp).mpr hres]
        rw [if_neg hres, this, List.getLast?_concat, Option.map_some]

theorem Consistent.step (h : Consistent s) (e : Event) : Consistent (s.step e) := by
  obtain hstill | ⟨id, call, hcall, hrun, hmoves⟩ | ⟨request, hmoves⟩ := step_cases s e
  · obtain ⟨hcalls, hlatest, hshow⟩ := hstill
    refine ⟨?_, ?_, ?_, ?_, ?_⟩
    · exact ⟨hcalls ▸ h.increasing, by rw [hcalls, hlatest]; exact h.bounded, hcalls ▸ h.own⟩
    · rw [hshow.published, shownOutcomes, outcomes, hcalls]; exact h.complete
    · rw [hshow.published]; exact h.ordered
    · rw [hshow.view, hshow.published]; exact h.view
    · rw [hshow.lastQueried, hshow.published]; exact h.lastQueried
  · exact h.moves hcall hrun hmoves
  · exact (h.enter request).moves (enter_getElem? s request) (enter_calls s request).2.1 hmoves

theorem Consistent.run (h : Consistent s) (events : List Event) : Consistent (s.run events) := by
  induction events generalizing s with
  | nil => exact h
  | cons e events ih => exact ih (h.step e)

/-! ## What one step displays -/

theorem moves_display (hcall : s.calls[id]? = some call) (hrun : call.stage.hasEnded = false)
    (hmoves : Moves s id call s') : SameDisplay s s' ∨ ∃ o, Publishes s s' id o := by
  cases hmoves with
  | quiet stage _ _ hshow _ => exact Or.inl hshow
  | shown o hcalls hlatest hp hr hs hn hpub hview hquery =>
    refine Or.inr ⟨o, hpub, hp, hn.trans hlatest.symm, ?_, ?_, ?_⟩
    · rw [hcalls, List.getElem?_modify_eq, hcall]; rfl
    · intro c hc; rw [hcall] at hc; cases hc; exact hrun
    · intro j hj; rw [hcalls, List.getElem?_modify_ne _ _ hj.symm]

theorem step_display (s : Session) (e : Event) :
    SameDisplay s (s.step e) ∨ ∃ id o, Publishes s (s.step e) id o := by
  obtain hstill | ⟨id, call, hcall, hrun, hmoves⟩ | ⟨request, hmoves⟩ := step_cases s e
  · exact Or.inl hstill.display
  · exact (moves_display hcall hrun hmoves).imp_right fun h => ⟨id, h⟩
  · obtain ⟨hcalls, hrun, hshow⟩ := enter_calls s request
    have hnone : s.calls[s.calls.length]? = none := List.getElem?_eq_none (Nat.le_refl _)
    obtain hsame | ⟨o, hpub⟩ := moves_display (enter_getElem? s request) hrun hmoves
    · exact Or.inl ⟨hsame.1.trans hshow.1, hsame.2.trans hshow.2, hsame.3.trans hshow.3⟩
    · refine Or.inr ⟨s.calls.length, o, ?_, hpub.shown, hpub.latest, hpub.ended, ?_, ?_⟩
      · rw [hpub.published, hshow.published]
      · intro c hc; rw [hnone] at hc; cases hc
      · intro j hj
        rw [hpub.others j hj, hcalls]
        rcases Nat.lt_or_gt_of_ne hj with hlt | hgt
        · exact List.getElem?_append_left hlt
        · rw [List.getElem?_eq_none (by simp; omega), List.getElem?_eq_none (Nat.le_of_lt hgt)]

theorem sameDisplay_of_ended {e : Event} (hcall : (s.step e).calls[id]? = some call)
    (hended : call.stage.hasEnded = true)
    (hnew : ∀ before, s.calls[id]? = some before → before.stage.hasEnded = false)
    (hout : ∀ o, call.outcome? = some o → o.status.isPublished = false) :
    SameDisplay s (s.step e) := by
  obtain hsame | ⟨j, o, hpub⟩ := step_display s e
  · exact hsame
  · -- the call that was published is not this one, and the others have not moved
    by_cases hj : id = j
    · subst hj
      have ho := hpub.ended
      rw [hcall, Option.bind_some] at ho
      have := hout o ho
      rw [hpub.shown] at this; cases this
    · have hold := hpub.others id hj
      rw [hcall] at hold
      have := hnew call hold.symm
      rw [hended] at this; cases this

/-- **Publication.** After any events, the shown outcomes of ended searches have each been
published once and nothing else has, with growing numbers; the view and the last query are those of
the last published outcomes. Each further step keeps the display or publishes the outcome of one
search, which ends in this step as the latest one; a search that ends in any other way leaves the
display as it was. -/
theorem publication (pageSize : GraphQL.Value) (events : List Event) :
    let s := run { pageSize } events
    s.published.Perm (s.outcomes.filter (·.status.isPublished)) ∧
    (s.published.map Outcome.seq).Pairwise (· < ·) ∧
    s.view = .ofLast s.published.getLast? ∧
    s.lastQueried = ((s.published.filter (·.status.isSearched)).getLast?).map Outcome.raw ∧
    ∀ e, (SameDisplay s (s.step e) ∨ ∃ id o, Publishes s (s.step e) id o) ∧
      ∀ (id : Nat) (call : Call), (s.step e).calls[id]? = some call → call.stage.hasEnded = true →
        (∀ before, s.calls[id]? = some before → before.stage.hasEnded = false) →
        (∀ o, call.outcome? = some o → o.status.isPublished = false) →
        SameDisplay s (s.step e) := by
  intro s
  have h : Consistent s := (consistent_init pageSize).run events
  refine ⟨h.complete, h.ordered, h.view, h.lastQueried, fun e => ⟨step_display s e, ?_⟩⟩
  intro id call hcall hended hnew hout
  exact sameDisplay_of_ended hcall hended hnew hout

end Session

end FieldSearch
