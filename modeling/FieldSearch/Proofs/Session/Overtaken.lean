import FieldSearch.Proofs.Schema.Response
import FieldSearch.Proofs.Session.Constrained
import FieldSearch.Proofs.Session.Resumption
import Mathlib.Data.List.Induction

/-!
# Searches that have been overtaken

A search goes on after the schema is discovered and after its reply arrives. If a later search has
been started by then, it ends as stale and nothing is shown. Only where the schema cannot be had
does it end as unavailable, overtaken or not.
-/

namespace FieldSearch

namespace Session

/-! ## Why a flight has failed -/

theorem isUnavailable_requestFailure (e : SearchError) :
    isUnavailable (Discovery.requestFailure (.error e)) = true := by
  obtain ⟨cause, guidance, retryable⟩ := e
  cases cause <;> rfl

/-- The failure of a flight whose requests fail with errors alone. -/
def Unavailable (f : Failure) (reply : Except Failure Json) : Prop :=
  isUnavailable f = true ∨ ∃ c, f = .crash c ∧ reply = .error (.crash c)

theorem unavailable_of_readReply {α : Type} {reply : Except Failure Json} {f : Failure}
    {read : Json → Except SearchError α}
    (hread : ∀ response e, read response = .error e → ∃ message, e = Schema.unavailable message)
    (h : Discovery.readReply reply read = .error f) : Unavailable f reply := by
  unfold Discovery.readReply at h
  cases reply with
  | error failure =>
    cases failure with
    | crash c => exact Or.inr ⟨c, (Except.error.inj h).symm, rfl⟩
    | error e => exact Or.inl (Except.error.inj h ▸ isUnavailable_requestFailure e)
  | ok response =>
    simp only at h
    cases hresponse : read response with
    | ok value =>
      rw [hresponse] at h
      cases h
    | error e =>
      obtain ⟨message, rfl⟩ := hread response e hresponse
      rw [hresponse] at h
      cases h
      exact Or.inl rfl

theorem unavailable_of_receive {d : Discovery} {n : Nat} {reply : Except Failure Json} {f : Failure}
    (hrun : d.IsRunning n) (h : (d.receive n reply).1.flights[n]? = some (.failed f)) :
    Unavailable f reply := by
  have hself := Discovery.getElem?_set_self hrun
  unfold Discovery.receive at h
  split at h
  · split at h
    · rename_i f' hread
      rw [hself] at h
      cases h
      exact unavailable_of_readReply (fun _ _ => Schema.filterTypeNames_eq_error) hread
    · rw [Discovery.land, hself] at h
      cases h
    · rw [hself] at h
      cases h
  · split at h
    · rename_i f' hread
      rw [hself] at h
      cases h
      exact unavailable_of_readReply (fun _ _ => Schema.documentTypes_eq_error) hread
    · rw [Discovery.land, hself] at h
      cases h
  · exact absurd hrun (Discovery.not_isRunning_of_eq h rfl)

variable {s : Session} {e : Event} {id n : Nat} {f : Failure}

theorem step_failed (hsound : s.discovery.Sound)
    (h : (s.step e).discovery.flights[n]? = some (.failed f)) :
    s.discovery.flights[n]? = some (.failed f) ∨
      ∃ reply, e = .answer (.flight n) reply ∧ Unavailable f reply := by
  obtain ⟨documents, hevolves, -⟩ := step_evolves hsound e
  generalize hd : (s.step e).discovery = d at hevolves h
  cases hevolves with
  | same | dropped => exact Or.inl h
  | launched =>
    rw [Discovery.getElem?_launch] at h
    split at h
    · cases h
    · exact Or.inl h
  | received m reply _ next hreceived =>
    by_cases hm : m = n
    · subst hm
      by_cases hrun : s.discovery.IsRunning m
      · obtain ⟨_, hanswer, -⟩ := answer_flight s m reply
        rw [Session.step, hanswer] at hd
        subst hd
        exact Or.inr ⟨reply, rfl, unavailable_of_receive hrun h⟩
      · rw [(hreceived.of_not_running hrun).1] at h
        exact Or.inl h
    · rw [hreceived.getElem?_ne hm] at h
      exact Or.inl h

/-- A flight of a session fails with an unavailable schema, unless a request of it has crashed. -/
theorem isUnavailable_of_failed {pageSize : GraphQL.Value} {events : List Event}
    (h : (run { pageSize } events).discovery.flights[n]? = some (.failed f)) :
    isUnavailable f = true ∨ ∃ c, .answer (.flight n) (.error (.crash c)) ∈ events := by
  induction events using List.reverseRecOn with
  | nil => cases h
  | append_singleton events e ih =>
    rw [run_concat] at h
    obtain hbefore | ⟨reply, rfl, hf | ⟨c, -, rfl⟩⟩ := step_failed (charted pageSize events).sound h
    · exact (ih hbefore).imp_right fun ⟨c, hc⟩ => ⟨c, List.mem_append_left _ hc⟩
    · exact Or.inl hf
    · exact Or.inr ⟨c, List.mem_append_right _ (List.mem_singleton_self _)⟩

/-! ## Overtaken searches -/

theorem publish_of_unpublished {o : Outcome} (h : o.status.isPublished = false) :
    s.publish o = s := by
  unfold publish
  cases hstatus : o.status with
  | notAQuery | unavailable | stale => rfl
  | restored | results | noEligibleType =>
    rw [hstatus] at h
    cases h

theorem conclude_ended {o : Outcome} {call : Call} (hcall : s.calls[id]? = some call)
    (ho : o.status.isPublished = false) :
    SameDisplay s (s.conclude id o) ∧ (s.conclude id o).calls[id]? =
      some { call with stage := .finished (.ok (.outcome o)) } := by
  rw [conclude, publish_of_unpublished ho]
  exact ⟨⟨rfl, rfl, rfl⟩, by simp [finish, setStage, hcall]⟩

theorem receive_overtaken {seq : Nat} (raw : Text) (rootFields : List Text)
    {reply : Except Failure Json} (hlate : s.isLatest seq = false)
    (hreply : ∀ c, reply ≠ .error (.crash c)) :
    s.receive id seq raw rootFields reply = s.conclude id { seq, raw, status := .stale } := by
  unfold receive
  split
  · rename_i c
    exact absurd rfl (hreply c)
  · simp [hlate]
  · simp [hlate]

/-- The schema that the call waits for cannot be had. -/
def WaitsInVain (s : Session) (id : Nat) : Prop :=
  ∃ call m f, s.calls[id]? = some call ∧ call.stage = .waiting m ∧
    s.discovery.flights[m]? = some (.failed f)

/-- A search ends in this step with this result, and a later one has been started by then. -/
structure EndsOvertaken (s : Session) (e : Event) (id : Nat) (raw : Text) (seq : Nat)
    (result : Except Failure Answer) : Prop where
  ended : (s.step e).calls[id]? = some ⟨.trigger raw, seq, .finished result⟩
  running : ∀ call, s.calls[id]? = some call → call.stage.hasEnded = false
  overtaken : seq < (s.step e).latest

/-- A search that ends in the step that starts it is the latest. -/
theorem EndsOvertaken.started {raw : Text} {seq : Nat} {result : Except Failure Answer}
    (h : EndsOvertaken s e id raw seq result) : ∃ call, s.calls[id]? = some call := by
  cases hcall : s.calls[id]? with
  | some call => exact ⟨call, rfl⟩
  | none =>
    exfalso
    have hended := h.ended
    have hlate := h.overtaken
    obtain hstill | ⟨j, call, -, -, hmoves⟩ | ⟨request, hmoves⟩ := step_cases s e
    · rw [hstill.calls, hcall] at hended
      cases hended
    · obtain ⟨stage, hcalls⟩ := hmoves.stage_latest.1
      rw [hcalls, List.getElem?_modify, hcall] at hended
      cases hended
    · -- the search is the call that has just entered, and it has the latest number
      obtain ⟨⟨stage, hcalls⟩, hlatest⟩ := hmoves.stage_latest
      have hid : id = s.calls.length := by
        have hlt := (List.getElem?_eq_some_iff.mp hended).1
        rw [hcalls, List.length_modify, (enter_calls s request).1, List.length_append] at hlt
        have hge := List.getElem?_eq_none_iff.mp hcall
        simp at hlt
        omega
      rw [hid, hcalls, List.getElem?_modify_eq, enter_getElem?] at hended
      rw [hlatest] at hlate
      cases request with
      | trigger raw' =>
        cases hended
        exact absurd hlate (Nat.lt_irrefl _)
      | suggest _ | compile _ | documentTypes => cases hended

/-- A search has no document under this page size, and crashes. -/
inductive Unservable (pageSize : GraphQL.Value) : Crash → Prop
  | refused {c : Crash} : GraphQL.SearchDocument.checkPageSize pageSize = .error c →
      Unservable pageSize c
  | unwritable {c : Crash} : pageSize.literal = .error c → Unservable pageSize c

theorem search_overtaken {types : List DocumentType} {raw : Text} {call : Call}
    {result : Except Failure Answer} (hcall : s.calls[id]? = some call)
    (hlate : s.isLatest call.seq = false)
    (hended : ((s.search id call.seq types raw).calls[id]?).map Call.stage =
      some (.finished result)) :
    SameDisplay s (s.search id call.seq types raw) ∧
      (result = .ok (.outcome { seq := call.seq, raw, status := .stale }) ∨
        ∃ c, Unservable s.pageSize c ∧ result = .error (.crash c)) := by
  unfold search at hended ⊢
  cases hsearch : s.searchFor types raw with
  | error c =>
    rw [hsearch] at hended
    refine ⟨⟨rfl, rfl, rfl⟩, Or.inr ⟨_, .refused (searchFor_eq_error hsearch), ?_⟩⟩
    simpa [finish, setStage, hcall, eq_comm] using hended
  | ok document =>
    cases document with
    | none =>
      have hstale : s.current { seq := call.seq, raw, status := .noEligibleType } =
          { seq := call.seq, raw, status := .stale } := by simp [current, hlate]
      obtain ⟨hdisplay, hstage⟩ :=
        conclude_ended (o := { seq := call.seq, raw, status := .stale }) hcall rfl
      rw [hsearch] at hended
      simp only [hstale, hstage] at hended ⊢
      cases hended
      exact ⟨hdisplay, Or.inl rfl⟩
    | some d =>
      rw [hsearch] at hended
      cases hrender : d.render with
      | error c =>
        simp only [hrender] at hended ⊢
        refine ⟨⟨rfl, rfl, rfl⟩, Or.inr ⟨_, .unwritable (literal_of_render hsearch hrender), ?_⟩⟩
        simpa [finish, setStage, hcall, eq_comm] using hended
      | ok text => simp [hrender, send, setStage, hcall] at hended

theorem Resumes.overtaken {call : Call} {s' : Session} {raw : Text} {result : Except Failure Answer}
    (h : Resumes s id call e s') (hcall : s.calls[id]? = some call)
    (hr : call.request = .trigger raw) (hlate : s.isLatest call.seq = false)
    (hreply : ∀ sender c, e ≠ .answer sender (.error (.crash c)))
    (hfailed : ∀ (n : Nat) f, s.discovery.flights[n]? = some (.failed f) → isUnavailable f = true)
    (hended : (s'.calls[id]?).map Call.stage = some (.finished result)) :
    SameDisplay s s' ∧
    (s.WaitsInVain id →
      result = .ok (.outcome { seq := call.seq, raw, status := .unavailable })) ∧
    (¬ s.WaitsInVain id → result = .ok (.outcome { seq := call.seq, raw, status := .stale }) ∨
      ∃ c, Unservable s.pageSize c ∧ result = .error (.crash c)) := by
  have hvain : ∀ m, call.stage = .waiting m → s.WaitsInVain id →
      ∃ f, s.discovery.flights[m]? = some (.failed f) := by
    rintro m hwait ⟨call', m', f, hcall', hwait', hf⟩
    rw [hcall] at hcall'
    cases hcall'
    rw [hwait] at hwait'
    cases hwait'
    exact ⟨f, hf⟩
  cases h with
  | replied raw' rootFields reply heq =>
    rw [heq] at hr
    cases hr
    have hnot : ∀ c, reply ≠ .error (.crash c) := by
      rintro c rfl
      exact hreply _ c rfl
    rw [receive_overtaken raw rootFields hlate hnot] at hended ⊢
    obtain ⟨hdisplay, hstage⟩ :=
      conclude_ended (o := { seq := call.seq, raw, status := .stale }) hcall rfl
    rw [hstage] at hended
    cases hended
    refine ⟨hdisplay, ?_, fun _ => Or.inl rfl⟩
    rintro ⟨call', m, f, hcall', hwait, -⟩
    rw [hcall] at hcall'
    cases hcall'
    rw [heq] at hwait
    cases hwait
  | awake m types hwait hlanded =>
    simp only [proceed, hr] at hended ⊢
    obtain ⟨hdisplay, hresult⟩ :=
      search_overtaken (s := { s with discovery := s.discovery.leave m }) hcall hlate hended
    refine ⟨⟨hdisplay.1, hdisplay.2, hdisplay.3⟩, fun h => ?_, fun _ => hresult⟩
    obtain ⟨f, hf⟩ := hvain m hwait h
    rw [hlanded] at hf
    cases hf
  | refused m f hwait hf =>
    -- here nothing asks whether the search is still the latest
    simp only [giveUp, hr, hfailed m f hf, if_true] at hended ⊢
    obtain ⟨hdisplay, hstage⟩ := conclude_ended (s := { s with discovery := s.discovery.leave m })
      (o := { seq := call.seq, raw, status := .unavailable }) hcall rfl
    rw [hstage] at hended
    cases hended
    refine ⟨⟨hdisplay.1, hdisplay.2, hdisplay.3⟩, fun _ => rfl, fun h => ?_⟩
    exact absurd ⟨call, m, f, hcall, hwait, hf⟩ h

/-- **Overtaken searches.** A search that ends after a later one was started shows nothing. It is
stale, unless the schema that it waited for cannot be had; then it is unavailable. It fails only
under a page size that is refused, or has no literal, whatever is searched for. -/
theorem overtaken_stale {pageSize : GraphQL.Value} {events : List Event} {raw : Text} {seq : Nat}
    {result : Except Failure Answer}
    (hcrash : ∀ sender c, Event.answer sender (.error (.crash c)) ∉ events ++ [e])
    (h : EndsOvertaken (run { pageSize } events) e id raw seq result) :
    let s := run { pageSize } events
    SameDisplay s (s.step e) ∧
    (s.WaitsInVain id → result = .ok (.outcome { seq, raw, status := .unavailable })) ∧
    (¬ s.WaitsInVain id → result = .ok (.outcome { seq, raw, status := .stale }) ∨
      ∃ c, Unservable pageSize c ∧ result = .error (.crash c)) := by
  intro s
  obtain ⟨call, hcall⟩ := h.started
  have hrun := h.running call hcall
  have hended := h.ended
  obtain hresumes | hsame | hcancelled := step_fates hcall e
  · obtain ⟨⟨stage, hcalls⟩, hlatest⟩ := hresumes.moves.stage_latest
    obtain ⟨hr, rfl⟩ : call.request = .trigger raw ∧ call.seq = seq := by
      rw [hcalls, List.getElem?_modify_eq, hcall] at hended
      cases call
      cases hended
      exact ⟨rfl, rfl⟩
    have hstage : ((s.step e).calls[id]?).map Call.stage = some (.finished result) := by
      rw [hended]
      rfl
    have hlate : s.isLatest call.seq = false := by
      have := h.overtaken
      rw [hlatest] at this
      exact decide_eq_false (Nat.ne_of_lt this)
    have hpage : s.pageSize = pageSize := (backed pageSize events).pageSize_eq
    rw [← hpage]
    refine hresumes.overtaken hcall hr hlate ?_ ?_ hstage
    · rintro sender c rfl
      exact hcrash sender c (List.mem_append_right _ (List.mem_singleton_self _))
    · intro n f hfailed
      refine (isUnavailable_of_failed hfailed).resolve_right ?_
      rintro ⟨c, hmem⟩
      exact hcrash _ c (List.mem_append_left _ hmem)
  · rw [hsame] at hended
    cases hended
    cases hrun
  · rw [hcancelled] at hended
    cases call
    cases hended

/-- Two searches, one after the other, and then the articles are discovered. -/
def twoSearches : List Event :=
  [.start (.trigger "price: 5"), .start (.trigger "price: 7")] ++ discoveredArticles

/-- The first search finds that no article has a price when the second one has been started. -/
theorem overtaken_stale_articles :
    (∀ sender c, Event.answer sender (.error (.crash c)) ∉ twoSearches ++ [.wake 0]) ∧
    EndsOvertaken (run { pageSize := .int 50 } twoSearches) (.wake 0) 0 "price: 5" 1
      (.ok (.outcome { seq := 1, raw := "price: 5", status := .stale })) ∧
    SameDisplay (run { pageSize := .int 50 } twoSearches)
      ((run { pageSize := .int 50 } twoSearches).step (.wake 0)) := by
  have hcrash : ∀ sender c, Event.answer sender (.error (.crash c)) ∉ twoSearches ++ [.wake 0] := by
    intro sender c
    simp [twoSearches, discoveredArticles]
  have h : EndsOvertaken (run { pageSize := .int 50 } twoSearches) (.wake 0) 0 "price: 5" 1
      (.ok (.outcome { seq := 1, raw := "price: 5", status := .stale })) := by
    refine ⟨rfl, fun call hcall => ?_, ?_⟩
    · cases hcall
      rfl
    · decide
  exact ⟨hcrash, h, (overtaken_stale hcrash h).1⟩

/-- Two searches, one after the other, whose schema cannot be had. -/
def twoSearchesInVain : List Event :=
  [.start (.trigger "title: cats"), .start (.trigger "title: dogs"),
   .answer (.flight 0) (.error (.ofCause (.network "boom")))]

/-- An overtaken search is not always stale. -/
theorem overtaken_not_stale :
    ¬ ∀ (pageSize : Int) (events : List Event) (e : Event) (id : Nat) (raw : Text) (seq : Nat)
      (result : Except Failure Answer), 1 ≤ pageSize →
      (∀ sender c, Event.answer sender (.error (.crash c)) ∉ events ++ [e]) →
      EndsOvertaken (run { pageSize := .int pageSize } events) e id raw seq result →
      result = .ok (.outcome { seq, raw, status := .stale }) := by
  intro h
  have hcrash : ∀ sender c, Event.answer sender (.error (.crash c)) ∉
      twoSearchesInVain ++ [.wake 0] := by
    intro sender c
    simp [twoSearchesInVain, Failure.ofCause]
  have hends : EndsOvertaken (run { pageSize := .int 50 } twoSearchesInVain) (.wake 0) 0
      "title: cats" 1
      (.ok (.outcome { seq := 1, raw := "title: cats", status := .unavailable })) := by
    refine ⟨rfl, fun call hcall => ?_, ?_⟩
    · cases hcall
      rfl
    · decide
  have := h 50 twoSearchesInVain (.wake 0) 0 _ 1 _ (by decide) hcrash hends
  cases this

end Session

end FieldSearch
