import FieldSearch.Proofs.Session.Discovery
import FieldSearch.Proofs.Session.Moves

/-!
# Answers of a session

A call goes on in three ways: with the types that are known, without them, or it waits. So every
answer follows from the request alone or from the types that are known for good, and a search
document is sent only for a search that resolves to some of these types.
-/

namespace FieldSearch

open GraphQL (SearchDocument typesDocument)

namespace Session

/-- An answer without types: the request needs none, or a flight has failed to bring them. -/
inductive Unaided (d : Discovery) : Request → Answer → Prop
  | restored (raw) (o : Outcome) : (Text.trim raw).isEmpty = true → o.status = .restored →
      Unaided d (.trigger raw) (.outcome o)
  | notAQuery (raw) (o : Outcome) : Constraints.isQuery raw = false → o.status = .notAQuery →
      Unaided d (.trigger raw) (.outcome o)
  | noDocument (raw) : Constraints.isQuery raw = false → Unaided d (.compile raw) (.document none)
  | unavailable (raw) (o : Outcome) (n : Nat) (f : Failure) : d.flights[n]? = some (.failed f) →
      o.status = .unavailable → Unaided d (.trigger raw) (.outcome o)
  | noSuggestions (raw) (n : Nat) (f : Failure) : d.flights[n]? = some (.failed f) →
      Unaided d (.suggest raw) (.suggestions [])

/-- An answer that these types give. -/
inductive Follows (pageSize : GraphQL.Value) (types : List DocumentType) : Request → Answer → Prop
  | types : Follows pageSize types .documentTypes (.types types)
  | suggestions (raw) :
      Follows pageSize types (.suggest raw) (.suggestions (suggestFields types raw))
  | document (raw document) : searchFor { pageSize } types raw = .ok document →
      Follows pageSize types (.compile raw) (.document document)
  | noEligibleType (raw) (o : Outcome) : searchFor { pageSize } types raw = .ok none →
      o.status = .noEligibleType → Follows pageSize types (.trigger raw) (.outcome o)
  | results (raw) (o : Outcome) (document : SearchDocument) (data : Json) :
      searchFor { pageSize } types raw = .ok (some document) → o.status = .results →
      Record.aggregate data (some document.rootFields) = .ok o.records →
      Follows pageSize types (.trigger raw) (.outcome o)
  | stale (raw) (o : Outcome) : o.status = .stale →
      Follows pageSize types (.trigger raw) (.outcome o)

/-- How a call fares: the stage that it comes to, and the documents that it sends on the way. -/
inductive Fares (pageSize : GraphQL.Value) (d : Discovery) (id : Nat) (request : Request) :
    Stage → List (Sender × Text) → Prop
  | waits (n : Nat) : n < d.flights.length → Fares pageSize d id request (.waiting n) []
  | opens (n : Nat) : n < d.flights.length →
      Fares pageSize d id request (.waiting n) [(.flight n, typesDocument)]
  | searches (types raw) (document : SearchDocument) (text : Text) : d.types = some types →
      request = .trigger raw → searchFor { pageSize } types raw = .ok (some document) →
      document.render = .ok text →
      Fares pageSize d id request (.searching document.rootFields) [(.call id, text)]
  | unaided (answer) : Unaided d request answer →
      Fares pageSize d id request (.finished (.ok answer)) []
  | answered (types answer) : d.types = some types → Follows pageSize types request answer →
      Fares pageSize d id request (.finished (.ok answer)) []
  | fails (f) : Fares pageSize d id request (.finished (.error f)) []
  | cancelled : Fares pageSize d id request .cancelled []

/-- One call moves on, in accord with its request and the types that are known. -/
structure Turn (s : Session) (id : Nat) (call : Call) (s' : Session) (stage : Stage)
    (documents : List (Sender × Text)) : Prop where
  fares : Fares s.pageSize s'.discovery id call.request stage documents
  calls : s'.calls = s.calls.modify id ({ · with stage })
  sent : s'.sent = s.sent ++ documents
  pageSize : s'.pageSize = s.pageSize

def Turns (s : Session) (id : Nat) (call : Call) (s' : Session) : Prop :=
  ∃ stage documents, Turn s id call s' stage documents

variable {s s' : Session} {id : Nat} {call : Call}

theorem Turns.of_discovery {d : Discovery} (h : Turns { s with discovery := d } id call s') :
    Turns s id call s' := by
  obtain ⟨stage, documents, hfares, hcalls, hsent, hpage⟩ := h
  exact ⟨stage, documents, hfares, hcalls, hsent, hpage⟩

/-! ## Ends -/

theorem finish_turns {result : Except Failure Answer}
    (h : Fares s.pageSize s.discovery id call.request (.finished result) []) :
    Turns s id call (s.finish id result) :=
  ⟨_, _, h, rfl, (List.append_nil _).symm, rfl⟩

theorem conclude_turns {o : Outcome}
    (h : Fares s.pageSize s.discovery id call.request (.finished (.ok (.outcome o))) []) :
    Turns s id call (s.conclude id o) := by
  refine ⟨.finished (.ok (.outcome o)), [], ?_, ?_, ?_, ?_⟩
  · rw [conclude_discovery]
    exact h
  · unfold conclude publish
    cases o.status <;> rfl
  · rw [conclude_sent, List.append_nil]
  · unfold conclude publish
    cases o.status <;> rfl

/-! ## With the types, and without them -/

theorem search_turns {types : List DocumentType} {raw : Text} (seq : Nat)
    (htypes : s.discovery.types = some types) (hr : call.request = .trigger raw) :
    Turns s id call (s.search id seq types raw) := by
  have hsearch : s.searchFor types raw = searchFor { pageSize := s.pageSize } types raw := rfl
  unfold search
  split
  · exact finish_turns (.fails _)
  · rename_i hnone
    refine conclude_turns (.answered types _ htypes ?_)
    rw [hr]
    unfold current
    split
    · exact .noEligibleType raw _ (hsearch ▸ hnone) rfl
    · exact .stale raw _ rfl
  · rename_i document hsome
    split
    · exact finish_turns (.fails _)
    · rename_i text htext
      exact ⟨_, _, .searches types raw document text htypes hr (hsearch ▸ hsome) htext, rfl, rfl,
        rfl⟩

theorem proceed_turns {types : List DocumentType} (htypes : s.discovery.types = some types) :
    Turns s id call (s.proceed id types call) := by
  unfold proceed
  split
  · rename_i raw hr
    exact search_turns _ htypes hr
  · rename_i raw hr
    exact finish_turns (.answered types _ htypes (hr ▸ .suggestions raw))
  · rename_i raw hr
    cases hsearch : s.searchFor types raw with
    | error c => exact finish_turns (.fails _)
    | ok document =>
      exact finish_turns (.answered types _ htypes (hr ▸ .document raw document hsearch))
  · rename_i hr
    exact finish_turns (.answered types _ htypes (hr ▸ .types))

theorem giveUp_turns {n : Nat} {f : Failure} (hfailed : s.discovery.flights[n]? = some (.failed f)) :
    Turns s id call (s.giveUp id f call) := by
  unfold giveUp
  split
  · rename_i raw hr
    split
    · exact conclude_turns (.unaided _ (hr ▸ .unavailable raw _ n f hfailed rfl))
    · exact finish_turns (.fails f)
  · rename_i raw hr
    split
    · exact finish_turns (.unaided _ (hr ▸ .noSuggestions raw n f hfailed))
    · exact finish_turns (.fails f)
  · exact finish_turns (.fails f)
  · exact finish_turns (.fails f)

theorem discover_turns (hsound : s.discovery.Sound) : Turns s id call (s.discover id call) := by
  unfold discover
  have henroll := hsound.enroll_cases
  generalize s.discovery.enroll = entry at henroll
  obtain ⟨d, admission⟩ := entry
  cases henroll with
  | known types htypes => exact Turns.of_discovery (proceed_turns htypes)
  | opened htypes hcurrent =>
    refine ⟨_, _, .opens s.discovery.flights.length ?_, rfl, rfl, rfl⟩
    simp [send, setStage]
  | refused n f htypes hcurrent hfailed => exact Turns.of_discovery (giveUp_turns hfailed)
  | waiting n htypes hcurrent hrun =>
    exact ⟨_, _, .waits n (Discovery.isRunning_lt hrun), rfl, (List.append_nil _).symm, rfl⟩

/-! ## Steps -/

theorem start_turns (hsound : s.discovery.Sound) (request : Request) :
    Turns (s.enter request).1 s.calls.length (s.enter request).2 (s.start request) := by
  have hentered : (s.enter request).1.discovery.Sound := by rwa [enter_discovery]
  unfold start
  cases request with
  | trigger raw =>
    simp only
    split
    · rename_i hblank
      exact conclude_turns (.unaided _ (.restored raw _ hblank rfl))
    · split
      · exact discover_turns hentered
      · rename_i hquery
        exact conclude_turns (.unaided _ (.notAQuery raw _ (Bool.eq_false_iff.mpr hquery) rfl))
  | compile raw =>
    simp only
    split
    · exact discover_turns hentered
    · rename_i hquery
      exact finish_turns (.unaided _ (.noDocument raw (Bool.eq_false_iff.mpr hquery)))
  | suggest raw => exact discover_turns hentered
  | documentTypes => exact discover_turns hentered

theorem receive_turns {raw : Text} {types : List DocumentType} {document : SearchDocument}
    (seq : Nat) (reply : Except Failure Json) (htypes : s.discovery.types = some types)
    (hr : call.request = .trigger raw)
    (hsearch : searchFor { pageSize := s.pageSize } types raw = .ok (some document)) :
    Turns s id call (s.receive id seq raw document.rootFields reply) := by
  have hstale : ∀ o : Outcome, o.status = .stale → Turns s id call (s.conclude id o) :=
    fun o ho => conclude_turns (.answered types _ htypes (hr ▸ .stale raw o ho))
  unfold receive
  split
  · exact finish_turns (.fails _)
  · split
    · exact finish_turns (.fails _)
    · exact hstale _ rfl
  · rename_i data
    split
    · split
      · exact finish_turns (.fails _)
      · rename_i records hrecords
        exact conclude_turns (.answered types _ htypes
          (hr ▸ .results raw _ document data hsearch rfl hrecords))
    · exact hstale _ rfl

theorem wake_turns (hsound : s.discovery.Sound) (id : Nat) :
    s.wake id = s ∨ ∃ call, s.calls[id]? = some call ∧ Turns s id call (s.wake id) := by
  unfold wake
  split
  · exact Or.inl rfl
  · rename_i call hcall
    split
    · exact Or.inl rfl
    · rename_i n ending hending
      have hended := (ending?_eq_some hending).2
      refine Or.inr ⟨call, hcall, ?_⟩
      cases ending with
      | ok types =>
        have hlanded := hsound.landed n types (Discovery.ending?_eq_ok hended)
        exact Turns.of_discovery (proceed_turns ((s.discovery.types_leave n).trans hlanded))
      | error f =>
        have hfailed := Discovery.ending?_eq_error hended
        rw [← s.discovery.flights_leave n] at hfailed
        exact Turns.of_discovery (giveUp_turns hfailed)

theorem cancel_turns (id : Nat) :
    s.cancel id = s ∨ ∃ call, s.calls[id]? = some call ∧ Turns s id call (s.cancel id) := by
  unfold cancel
  cases hcall : s.calls[id]? with
  | none => exact Or.inl rfl
  | some call =>
    simp only [Option.map_some]
    split
    · exact Or.inr ⟨call, rfl, _, _, .cancelled, rfl, (List.append_nil _).symm, rfl⟩
    · exact Or.inr ⟨call, rfl, _, _, .cancelled, rfl, (List.append_nil _).symm, rfl⟩
    · exact Or.inl rfl

/-! ## What holds of every call -/

/-- Every call stands where its request and the known types have led it, and every search document
is that of a search, compiled from these types. -/
structure Backed (pageSize : GraphQL.Value) (s : Session) : Prop where
  pageSize_eq : s.pageSize = pageSize
  fares : ∀ (id : Nat) call, s.calls[id]? = some call →
    ∃ documents, Fares pageSize s.discovery id call.request call.stage documents
  sent : ∀ (id : Nat) text, (.call id, text) ∈ s.sent →
    ∃ call types raw document, s.calls[id]? = some call ∧ call.request = .trigger raw ∧
      s.discovery.types = some types ∧ searchFor { pageSize } types raw = .ok (some document) ∧
      document.render = .ok text

theorem answer_turns {pageSize : GraphQL.Value} (h : Backed pageSize s) (id : Nat)
    (reply : Except Failure Json) :
    s.answer (.call id) reply = s ∨
      ∃ call, s.calls[id]? = some call ∧ Turns s id call (s.answer (.call id) reply) := by
  simp only [answer]
  split
  · rename_i raw seq rootFields hcall
    obtain ⟨documents, hfares⟩ := h.fares id _ hcall
    cases hfares with
    | searches types raw' document text htypes hr hsearch =>
      cases hr
      rw [← h.pageSize_eq] at hsearch
      exact Or.inr ⟨_, hcall, receive_turns seq reply htypes rfl hsearch⟩
  · exact Or.inl rfl

theorem Unaided.mono {d d' : Discovery} {request : Request} {answer : Answer}
    (h : Unaided d request answer) (hgrows : d.Grows d') : Unaided d' request answer := by
  cases h with
  | restored raw o hblank ho => exact .restored raw o hblank ho
  | notAQuery raw o hquery ho => exact .notAQuery raw o hquery ho
  | noDocument raw hquery => exact .noDocument raw hquery
  | unavailable raw o n f hfailed ho => exact .unavailable raw o n f (hgrows.failed n f hfailed) ho
  | noSuggestions raw n f hfailed => exact .noSuggestions raw n f (hgrows.failed n f hfailed)

theorem Fares.mono {pageSize : GraphQL.Value} {d d' : Discovery} {request : Request} {stage : Stage}
    {documents : List (Sender × Text)} (h : Fares pageSize d id request stage documents)
    (hgrows : d.Grows d') :
    Fares pageSize d' id request stage documents := by
  cases h with
  | waits n hn => exact .waits n (Nat.lt_of_lt_of_le hn hgrows.length_le)
  | opens n hn => exact .opens n (Nat.lt_of_lt_of_le hn hgrows.length_le)
  | searches types raw document text hknown hr hsearch htext =>
    exact .searches types raw document text (hgrows.types types hknown) hr hsearch htext
  | unaided answer hanswer => exact .unaided answer (hanswer.mono hgrows)
  | answered types answer hknown hanswer =>
    exact .answered types answer (hgrows.types types hknown) hanswer
  | fails f => exact .fails f
  | cancelled => exact .cancelled

theorem getElem?_modify_stage {calls : List Call} {j : Nat} {c : Call} (id : Nat) (stage : Stage)
    (h : calls[j]? = some c) : ∃ c', (calls.modify id ({ · with stage }))[j]? = some c' ∧
      c'.request = c.request ∧ (c' = c ∨ j = id ∧ c' = { c with stage }) := by
  by_cases hj : id = j
  · subst hj
    exact ⟨{ c with stage }, by rw [List.getElem?_modify_eq, h]; rfl, rfl, Or.inr ⟨rfl, rfl⟩⟩
  · exact ⟨c, by rw [List.getElem?_modify_ne _ _ hj, h], rfl, Or.inl rfl⟩

/-- A turn keeps all calls backed, also that of a call that has just entered. -/
theorem Backed.turn {pageSize : GraphQL.Value} {base : Session} (h : Backed pageSize s)
    (hpage : base.pageSize = s.pageSize) (hsent : base.sent = s.sent)
    (hbase : ∀ (j : Nat) c, s.calls[j]? = some c → base.calls[j]? = some c)
    (hnew : ∀ (j : Nat) c, base.calls[j]? = some c → j ≠ id → s.calls[j]? = some c)
    (hcall : base.calls[id]? = some call)
    (hgrows : s.discovery.Grows s'.discovery)
    (hturns : Turns base id call s') : Backed pageSize s' := by
  obtain ⟨stage, documents, hfares, hcalls, hsent', hpage'⟩ := hturns
  rw [hpage, h.pageSize_eq] at hfares
  refine ⟨(hpage'.trans hpage).trans h.pageSize_eq, fun j c hc => ?_, fun j text hmem => ?_⟩
  · rw [hcalls] at hc
    by_cases hj : id = j
    · subst hj
      rw [List.getElem?_modify_eq, hcall] at hc
      cases hc
      exact ⟨documents, hfares⟩
    · rw [List.getElem?_modify_ne _ _ hj] at hc
      obtain ⟨old, hold⟩ := h.fares j c (hnew j c hc (Ne.symm hj))
      exact ⟨old, hold.mono hgrows⟩
  · rw [hsent', hsent] at hmem
    rcases List.mem_append.mp hmem with hmem | hmem
    · obtain ⟨c, types, raw, document, hc, hr, hknown, hsearch, htext⟩ := h.sent j text hmem
      obtain ⟨c', hc', hreq, -⟩ := getElem?_modify_stage id stage (hbase j c hc)
      exact ⟨c', types, raw, document, hcalls ▸ hc', hreq.trans hr, hgrows.types types hknown,
        hsearch, htext⟩
    · cases hfares with
      | waits | unaided | answered | fails | cancelled => cases hmem
      | opens n => cases List.mem_singleton.mp hmem
      | searches types raw document text hknown hr hsearch htext =>
        cases List.mem_singleton.mp hmem
        obtain ⟨c', hc', hreq, -⟩ :=
          getElem?_modify_stage id (.searching document.rootFields) hcall
        exact ⟨c', types, raw, document, hcalls ▸ hc', hreq.trans hr, hknown, hsearch, htext⟩

theorem Backed.enter_turn {pageSize : GraphQL.Value} (h : Backed pageSize s) (request : Request)
    (hgrows : s.discovery.Grows s'.discovery)
    (hturns : Turns (s.enter request).1 s.calls.length (s.enter request).2 s') :
    Backed pageSize s' := by
  have hcalls := (enter_calls s request).1
  have hpage : (s.enter request).1.pageSize = s.pageSize := by cases request <;> rfl
  refine h.turn hpage (enter_sent s request) ?_ ?_ (enter_getElem? s request) hgrows hturns
  · intro j c hc
    rw [hcalls, List.getElem?_append_left (List.getElem?_eq_some_iff.mp hc).1]
    exact hc
  · intro j c hc hj
    have hlt := (List.getElem?_eq_some_iff.mp hc).1
    rw [hcalls, List.length_append, List.length_singleton] at hlt
    rwa [hcalls, List.getElem?_append_left (by omega)] at hc

theorem Backed.still {pageSize : GraphQL.Value} (h : Backed pageSize s)
    (hpage : s'.pageSize = s.pageSize) (hcalls : s'.calls = s.calls)
    (hsent : ∀ (id : Nat) text, (.call id, text) ∈ s'.sent → (.call id, text) ∈ s.sent)
    (hgrows : s.discovery.Grows s'.discovery) : Backed pageSize s' := by
  refine ⟨hpage.trans h.pageSize_eq, fun id call hcall => ?_, fun id text hmem => ?_⟩
  · obtain ⟨documents, hfares⟩ := h.fares id call (hcalls ▸ hcall)
    exact ⟨documents, hfares.mono hgrows⟩
  · obtain ⟨c, types, raw, document, hc, hr, hknown, hsearch, htext⟩ :=
      h.sent id text (hsent id text hmem)
    exact ⟨c, types, raw, document, hcalls ▸ hc, hr, hgrows.types types hknown, hsearch, htext⟩

theorem Backed.step {pageSize : GraphQL.Value} (h : Backed pageSize s) (hsound : s.discovery.Sound)
    (e : Event) : Backed pageSize (s.step e) := by
  have hgrows := step_grows hsound e
  have hturn : ∀ id, s.step e = s ∨
      (∃ call, s.calls[id]? = some call ∧ Turns s id call (s.step e)) →
        Backed pageSize (s.step e) := by
    rintro id (hsame | ⟨call, hcall, hturns⟩)
    · rw [hsame]
      exact h
    · exact h.turn rfl rfl (fun _ _ hc => hc) (fun _ _ hc _ => hc) hcall hgrows hturns
  cases e with
  | start request => exact h.enter_turn request hgrows (start_turns hsound request)
  | answer sender reply =>
    cases sender with
    | flight n =>
      obtain ⟨new, hstep, hnew⟩ := answer_flight s n reply
      refine h.still ?_ ?_ (fun id text hmem => ?_) hgrows
      · rw [Session.step, hstep]
      · rw [Session.step, hstep]
      · rw [Session.step, hstep] at hmem
        refine (List.mem_append.mp hmem).resolve_right fun hmem => ?_
        cases hnew _ hmem
    | call id => exact hturn id (answer_turns h id reply)
  | wake id => exact hturn id (wake_turns hsound id)
  | cancel id => exact hturn id (cancel_turns id)

theorem Backed.run {pageSize : GraphQL.Value} (h : Backed pageSize s) (hsound : s.discovery.Sound)
    (events : List Event) : Backed pageSize (s.run events) := by
  induction events generalizing s with
  | nil => exact h
  | cons e events ih => exact ih (h.step hsound e) (step_sound hsound e)

theorem backed (pageSize : GraphQL.Value) (events : List Event) :
    Backed pageSize (Session.run { pageSize } events) := by
  have hinit : Backed pageSize { pageSize } := by
    refine ⟨rfl, fun id call hcall => ?_, fun id text hmem => ?_⟩
    · cases hcall
    · cases hmem
  exact hinit.run Discovery.sound_init events

end Session

end FieldSearch
