import FieldSearch.Proofs.Query.Compilation
import FieldSearch.Proofs.Query.Eligibility
import FieldSearch.Proofs.Session.Answers

/-!
# Searches without a condition

A text is a query if it has a colon, yet only a segment with a name in front of its first colon
constrains a field. A query that names no field passes the gate and is satisfied by every type, so
it searches all of them without a condition. Every other search has conditions for every type.
-/

namespace FieldSearch

open GraphQL

/-! ## Searches for a text -/

namespace GraphQL.SearchDocument

/-- The search of all types without a condition. -/
def everything (pageSize : Value) (types : List DocumentType) : SearchDocument :=
  ⟨types.map fun t => .ofResolution pageSize ⟨t, []⟩⟩

end GraphQL.SearchDocument

namespace Session

variable {s : Session} {types : List DocumentType} {raw : Text} {document : SearchDocument}

theorem searchFor_eq_some (h : s.searchFor types raw = .ok (some document)) :
    SearchDocument.checkPageSize s.pageSize = .ok () ∧ resolveTypes types (.ofText raw) ≠ [] ∧
      document = ⟨(resolveTypes types (.ofText raw)).map (Selection.ofResolution s.pageSize)⟩ := by
  unfold searchFor at h
  split at h
  · cases h
  · rename_i resolved hne
    rw [SearchDocument.ofResolutions_eq] at h
    cases hpage : SearchDocument.checkPageSize s.pageSize with
    | error c =>
      rw [hpage] at h
      cases h
    | ok =>
      rw [hpage] at h
      cases h
      exact ⟨rfl, hne, rfl⟩

/-- A search is written exactly if its page size has a literal. -/
theorem render_of_searchFor (h : s.searchFor types raw = .ok (some document)) :
    (∀ first, s.pageSize.literal = .ok first → ∃ text, document.render = .ok text) ∧
    ∀ c, s.pageSize.literal = .error c → document.render = .error c := by
  obtain ⟨-, hne, rfl⟩ := searchFor_eq_some h
  exact ⟨fun _ hfirst => SearchDocument.exists_render_ofResolution _ hfirst,
    fun _ herror => SearchDocument.render_ofResolution hne herror⟩

theorem literal_of_render {c : Crash} (h : s.searchFor types raw = .ok (some document))
    (hrender : document.render = .error c) : s.pageSize.literal = .error c := by
  obtain ⟨hok, herror⟩ := render_of_searchFor h
  cases hfirst : s.pageSize.literal with
  | ok first =>
    obtain ⟨text, htext⟩ := hok first hfirst
    rw [htext] at hrender
    cases hrender
  | error c' =>
    rw [herror c' hfirst] at hrender
    cases hrender
    rfl

theorem searchFor_eq_error {c : Crash} (h : s.searchFor types raw = .error c) :
    SearchDocument.checkPageSize s.pageSize = .error c := by
  unfold searchFor at h
  split at h
  · cases h
  · rw [SearchDocument.ofResolutions_eq] at h
    cases hpage : SearchDocument.checkPageSize s.pageSize with
    | error c' =>
      rw [hpage] at h
      cases h
      rfl
    | ok =>
      rw [hpage] at h
      cases h

/-- How a search document agrees with the text that it was compiled from. -/
structure Reflects (pageSize : Value) (types : List DocumentType) (raw : Text)
    (document : SearchDocument) : Prop where
  selections_ne : document.selections ≠ []
  conditions_ne_iff : (∀ selection ∈ document.selections, selection.conditions ≠ []) ↔
    ∃ name, Constraints.Names raw name
  everything : (¬ ∃ name, Constraints.Names raw name) → document = .everything pageSize types

theorem reflects_of_searchFor (h : s.searchFor types raw = .ok (some document)) :
    Reflects s.pageSize types raw document := by
  obtain ⟨-, hne, hdocument⟩ := searchFor_eq_some h
  have hselections := congrArg SearchDocument.selections hdocument
  have hempty : ∀ r ∈ resolveTypes types (.ofText raw),
      r.conditions = [] ↔ ¬ ∃ name, Constraints.Names raw name := by
    intro r hr
    rw [← Constraints.ofText_eq_nil_iff]
    exact DocumentType.conditions_eq_nil_iff (mem_resolveTypes hr).2
  refine ⟨?_, ⟨fun hall => ?_, fun hnames selection hselection => ?_⟩, fun hnone => ?_⟩
  · rw [hselections]
    simpa using hne
  · -- all selections come from one text, so the first one decides
    obtain ⟨r, hr⟩ := List.exists_mem_of_ne_nil _ hne
    have hconditions : r.conditions ≠ [] :=
      hall (.ofResolution s.pageSize r) (hselections ▸ List.mem_map_of_mem hr)
    by_contra hnone
    exact hconditions ((hempty r hr).mpr hnone)
  · rw [hselections] at hselection
    obtain ⟨r, hr, rfl⟩ := List.mem_map.mp hselection
    exact fun hnil => (hempty r hr).mp hnil hnames
  · rw [Constraints.ofText_eq_nil_iff.mpr hnone, resolveTypes_nil, List.map_map] at hselections
    cases document
    exact congrArg SearchDocument.mk hselections

/-! ## Queries that name no field -/

theorem searchFor_everything (hnone : ¬ ∃ name, Constraints.Names raw name) (htypes : types ≠ [])
    (hpage : SearchDocument.checkPageSize s.pageSize = .ok ()) :
    s.searchFor types raw = .ok (some (.everything s.pageSize types)) := by
  have hresolved : resolveTypes types (.ofText raw) = types.map fun t => ⟨t, []⟩ := by
    rw [Constraints.ofText_eq_nil_iff.mpr hnone, resolveTypes_nil]
  unfold searchFor
  split
  · rename_i hnil
    rw [hresolved, List.map_eq_nil_iff] at hnil
    exact absurd hnil htypes
  · rw [hresolved, SearchDocument.ofResolutions_eq_ok hpage, List.map_map]
    rfl

theorem needsTypes_trigger (raw : Text) :
    Request.needsTypes (.trigger raw) = Constraints.isQuery raw := by
  unfold Request.needsTypes Constraints.isQuery
  by_cases hcolon : ':' ∈ raw
  · have hne : raw.trim ≠ [] := by
      intro hnil
      exact absurd (Text.trim_eq_nil_iff.mp hnil ':' hcolon) (by decide)
    simp [hcolon, hne]
  · simp [hcolon]

theorem start_of_known {request : Request} (hneeds : request.needsTypes = true)
    (htypes : s.discovery.types = some types) :
    s.step (.start request) =
      (s.enter request).1.proceed s.calls.length types (s.enter request).2 := by
  have henroll : s.discovery.enroll = (s.discovery, .known types) := by
    simp [Discovery.enroll, htypes]
  rw [Session.step, start_of_needsTypes hneeds, discover, enter_discovery, henroll]
  cases request <;> rfl

section

variable (htypes : s.discovery.types = some types) (hquery : Constraints.isQuery raw = true)

include htypes hquery

theorem start_trigger_of_known : s.step (.start (.trigger raw)) =
    (s.enter (.trigger raw)).1.search s.calls.length (s.enter (.trigger raw)).2.seq types raw := by
  rw [start_of_known ((needsTypes_trigger raw).trans hquery) htypes]
  rfl

theorem start_trigger_of_render (hsearch : s.searchFor types raw = .ok (some document))
    {text : Text} (hrender : document.render = .ok text) : s.step (.start (.trigger raw)) =
      ((s.enter (.trigger raw)).1.setStage s.calls.length (.searching document.rootFields)).send
        (.call s.calls.length) text := by
  have hsearch' : (s.enter (.trigger raw)).1.searchFor types raw = .ok (some document) := hsearch
  rw [start_trigger_of_known htypes hquery, search, hsearch']
  simp only [hrender]

theorem start_trigger_of_not_render (hsearch : s.searchFor types raw = .ok (some document))
    {c : Crash} (hrender : document.render = .error c) : s.step (.start (.trigger raw)) =
      (s.enter (.trigger raw)).1.finish s.calls.length (.error (.crash c)) := by
  have hsearch' : (s.enter (.trigger raw)).1.searchFor types raw = .ok (some document) := hsearch
  rw [start_trigger_of_known htypes hquery, search, hsearch']
  simp only [hrender]

/-- A search is sent unless its document cannot be written. -/
theorem sent_start_trigger (hsearch : s.searchFor types raw = .ok (some document)) :
    (s.step (.start (.trigger raw))).sent =
      s.sent ++ document.render.toOption.toList.map (.call s.calls.length, ·) := by
  cases hrender : document.render with
  | error c =>
    rw [start_trigger_of_not_render htypes hquery hsearch hrender]
    exact (List.append_nil _).symm
  | ok text =>
    rw [start_trigger_of_render htypes hquery hsearch hrender]
    rfl

theorem start_compile_of_searchFor {compiled : Option SearchDocument}
    (hsearch : s.searchFor types raw = .ok compiled) : s.step (.start (.compile raw)) =
      (s.enter (.compile raw)).1.finish s.calls.length (.ok (.document compiled)) := by
  have hsearch' : (s.enter (.compile raw)).1.searchFor types raw = .ok compiled := hsearch
  have hneeds : Request.needsTypes (.compile raw) = true := hquery
  rw [start_of_known hneeds htypes, proceed]
  simp only [enter] at hsearch' ⊢
  rw [hsearch']
  rfl

end

theorem getElem?_finish_compile (s : Session) (raw : Text) (result : Except Failure Answer) :
    ((s.enter (.compile raw)).1.finish s.calls.length result).calls[s.calls.length]? =
      some { request := .compile raw, stage := .finished result } := by
  rw [finish, setStage, List.getElem?_modify_eq, enter_getElem?]
  rfl

/-- **A search has conditions exactly when its text names a field.** This holds of every search
document that is sent and of every one that a compilation answers with. A query that names no field
does not stop at the gate: once types are known, it searches all of them without a condition, unless
the page size has no literal and no search can be sent. -/
theorem conditions_iff_named (pageSize : Value) (events : List Event) :
    let s := run { pageSize } events
    (∀ (id : Nat) text, (.call id, text) ∈ s.sent → ∃ call types raw document,
      s.calls[id]? = some call ∧ call.request = .trigger raw ∧ s.discovery.types = some types ∧
        document.render = .ok text ∧ Reflects pageSize types raw document) ∧
    (∀ (id : Nat) call document, s.calls[id]? = some call →
      call.stage = .finished (.ok (.document (some document))) → ∃ types raw,
        call.request = .compile raw ∧ s.discovery.types = some types ∧
          Reflects pageSize types raw document) ∧
    (∀ types raw, s.discovery.types = some types → types ≠ [] →
      SearchDocument.checkPageSize pageSize = .ok () → Constraints.isQuery raw = true →
      (¬ ∃ name, Constraints.Names raw name) →
      (∀ first, pageSize.literal = .ok first → ∃ text,
          (SearchDocument.everything pageSize types).render = .ok text ∧
          (s.step (.start (.trigger raw))).sent = s.sent ++ [(.call s.calls.length, text)]) ∧
        (∀ c, pageSize.literal = .error c → (s.step (.start (.trigger raw))).sent = s.sent) ∧
        (s.step (.start (.compile raw))).calls[s.calls.length]? =
          some { request := .compile raw,
                 stage := .finished (.ok (.document (some (.everything pageSize types)))) }) := by
  intro s
  have hbacked : Backed pageSize s := backed pageSize events
  refine ⟨fun id text hmem => ?_, fun id call document hcall hstage => ?_,
    fun types raw htypes hne hpage hquery hnone => ?_⟩
  · obtain ⟨call, types, raw, document, hcall, hr, htypes, hsearch, htext⟩ :=
      hbacked.sent id text hmem
    exact ⟨call, types, raw, document, hcall, hr, htypes, htext, reflects_of_searchFor hsearch⟩
  · obtain ⟨documents, hfares⟩ := hbacked.fares id call hcall
    generalize hrequest : call.request = request at hfares
    rw [hstage] at hfares
    cases hfares with
    | unaided answer hanswer => cases hanswer
    | answered types answer htypes hanswer =>
      cases hanswer with
      | document raw _ hsearch => exact ⟨types, raw, rfl, htypes, reflects_of_searchFor hsearch⟩
  · have hsearch := searchFor_everything (s := s) hnone hne (hbacked.pageSize_eq ▸ hpage)
    rw [hbacked.pageSize_eq] at hsearch
    have hsent := sent_start_trigger htypes hquery hsearch
    obtain ⟨hok, herror⟩ := render_of_searchFor hsearch
    rw [hbacked.pageSize_eq] at hok herror
    refine ⟨fun first hfirst => ?_, fun c hc => ?_, ?_⟩
    · obtain ⟨text, htext⟩ := hok first hfirst
      rw [htext] at hsent
      exact ⟨text, htext, hsent⟩
    · rw [herror c hc] at hsent
      exact hsent.trans (List.append_nil _)
    · rw [start_compile_of_searchFor htypes hquery hsearch, getElem?_finish_compile]

/-- The articles are discovered. -/
def discoveredArticles : List Event :=
  [.start .documentTypes,
   .answer (.flight 0) (.ok (.object [("__schema",
     .object [("types", .array [.object [("name", .text "WhereArticle")]])])])),
   .answer (.flight 0) (.ok articleInputs)]

theorem types_discoveredArticles (pageSize : Value) :
    (run { pageSize } discoveredArticles).discovery.types = some [DocumentType.articles] := by
  rfl

/-- A colon without a name in front of it is enough to search all articles. -/
theorem unconditional_search :
    (¬ ∀ (pageSize : Int) (events : List Event) (id : Nat) (raw text : Text),
      let s := run { pageSize := .int pageSize } events
      (s.calls[id]?).map Call.request = some (.trigger raw) → Constraints.ofText raw = [] →
        (.call id, text) ∉ s.sent) ∧
    ¬ ∀ (pageSize : Int) (events : List Event) (id : Nat) (call : Call) (document : SearchDocument),
      (run { pageSize := .int pageSize } events).calls[id]? = some call →
      call.stage = .finished (.ok (.document (some document))) →
      ∀ selection ∈ document.selections, selection.conditions ≠ [] := by
  have htypes := types_discoveredArticles (.int 50)
  have hempty : Constraints.ofText ": news" = [] := by decide
  have hsearch : (run { pageSize := .int 50 } discoveredArticles).searchFor [DocumentType.articles]
      ": news" = .ok (some (.everything (.int 50) [DocumentType.articles])) :=
    searchFor_everything (Constraints.ofText_eq_nil_iff.mp hempty) (List.cons_ne_nil _ _) rfl
  constructor
  · intro h
    have hsent := sent_start_trigger htypes rfl hsearch
    obtain ⟨text, htext⟩ := (render_of_searchFor hsearch).1 _ rfl
    rw [← run_concat, htext] at hsent
    have hmem : (.call 1, text) ∈ (run { pageSize := .int 50 }
        (discoveredArticles ++ [.start (.trigger ": news")])).sent := by
      rw [hsent]
      exact List.mem_append_right _ (List.mem_singleton_self _)
    exact h 50 _ 1 ": news" _ rfl hempty hmem
  · intro h
    have hcalls := getElem?_finish_compile (run { pageSize := .int 50 } discoveredArticles) ": news"
      (.ok (.document (some (.everything (.int 50) [DocumentType.articles]))))
    rw [← start_compile_of_searchFor htypes rfl hsearch, ← run_concat] at hcalls
    exact h 50 _ _ _ _ hcalls rfl _ (List.mem_singleton_self _) rfl

end Session

end FieldSearch
