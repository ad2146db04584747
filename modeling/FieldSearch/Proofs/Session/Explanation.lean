import FieldSearch.Proofs.Session.Constrained
import FieldSearch.Proofs.Session.Resumption

/-!
# Compilations explain searches

Once the types are known, the document of a search is decided by its text. A compilation answers
with the document that a search for the same text sends, whenever either of them is started, and
leaves everything else as it was. Where the page size has too many digits, the document cannot be
written, and the search crashes instead of sending it.
-/

namespace FieldSearch

open GraphQL (SearchDocument Value)

/-- The call has been given the types, or it has ended. -/
def Stage.isSettled : Stage → Bool
  | searching _ | finished _ | cancelled => true
  | starting | waiting _ => false

namespace Session

/-- The documents that a call has sent on its own account. -/
def documentsBy (s : Session) (id : Nat) : List Text :=
  (s.sent.filter (·.1 = .call id)).map Prod.snd

/-- A call of this place has been given the types, or has ended. -/
def IsSettled (s : Session) (id : Nat) : Prop :=
  ∃ call, s.calls[id]? = some call ∧ call.stage.isSettled = true

variable {s s' : Session} {e : Event} {id : Nat} {types : List DocumentType} {raw : Text}

/-! ## A search sends one document at most -/

theorem conclude_calls (o : Outcome) : (s.conclude id o).calls =
    s.calls.modify id ({ · with stage := .finished (.ok (.outcome o)) }) := by
  unfold conclude publish
  cases o.status <;> rfl

theorem receive_calls (seq : Nat) (raw : Text) (rootFields : List Text)
    (reply : Except Failure Json) : ∃ result, (s.receive id seq raw rootFields reply).calls =
      s.calls.modify id ({ · with stage := .finished result }) := by
  unfold receive
  repeat' split
  all_goals first
    | exact ⟨_, conclude_calls _⟩
    | exact ⟨_, rfl⟩

theorem documentsBy_of_turns {base : Session} {call : Call} {j : Nat} (h : Turns base j call s')
    (hj : j ≠ id) (hsent : base.sent = s.sent) : s'.documentsBy id = s.documentsBy id := by
  obtain ⟨stage, documents, hfares, -, hsent', -⟩ := h
  have hothers : documents.filter (·.1 = .call id) = [] := by
    cases hfares with
    | searches => simp [hj]
    | opens => simp
    | waits | unaided | answered | fails | cancelled => rfl
  rw [documentsBy, hsent', hsent, List.filter_append, hothers, List.append_nil, documentsBy]

theorem wake_settled {call : Call} (hcall : s.calls[id]? = some call)
    (hsettled : call.stage.isSettled = true) : s.wake id = s := by
  have hending : s.ending? call = none := by
    unfold ending?
    split
    · rename_i m hwait
      rw [hwait] at hsettled
      cases hsettled
    · rfl
  simp [wake, hcall, hending]

theorem documentsBy_step (hsound : s.discovery.Sound) (h : s.IsSettled id) (e : Event) :
    (s.step e).documentsBy id = s.documentsBy id := by
  obtain ⟨call, hcall, hsettled⟩ := h
  cases e with
  | start request =>
    have hlt := (List.getElem?_eq_some_iff.mp hcall).1
    exact documentsBy_of_turns (start_turns hsound request) (Nat.ne_of_gt hlt)
      (enter_sent s request)
  | answer sender reply =>
    cases sender with
    | flight n =>
      obtain ⟨documents, hanswer, hsenders⟩ := answer_flight s n reply
      have hothers : documents.filter (·.1 = .call id) = [] := by
        rw [List.filter_eq_nil_iff]
        intro entry hentry
        simp [hsenders entry hentry]
      rw [Session.step, hanswer, documentsBy, List.filter_append, hothers, List.append_nil,
        documentsBy]
    | call j =>
      simp only [Session.step, answer]
      split
      · simp only [documentsBy, receive_sent]
      · rfl
  | wake j =>
    by_cases hj : j = id
    · subst hj
      rw [Session.step, wake_settled hcall hsettled]
    · obtain hsame | ⟨other, -, hturns⟩ := wake_turns hsound j
      · rw [Session.step, hsame]
      · exact documentsBy_of_turns hturns hj rfl
  | cancel j =>
    simp only [Session.step, cancel]
    split <;> rfl

theorem IsSettled.of_modify {call : Call} {stage : Stage} (hcall : s.calls[id]? = some call)
    (hcalls : s'.calls = s.calls.modify id ({ · with stage })) (h : stage.isSettled = true) :
    s'.IsSettled id :=
  ⟨{ call with stage }, by simp [hcalls, hcall], h⟩

theorem IsSettled.step (h : s.IsSettled id) (e : Event) : (s.step e).IsSettled id := by
  obtain ⟨call, hcall, hsettled⟩ := h
  obtain hresumes | hsame | hcancelled := step_fates hcall e
  · generalize s.step e = s' at hresumes
    cases hresumes with
    | replied raw rootFields reply heq =>
      obtain ⟨result, hcalls⟩ := receive_calls (s := s) call.seq raw rootFields reply
      exact .of_modify hcall hcalls rfl
    | awake m types hwait | refused m f hwait =>
      rw [hwait] at hsettled
      cases hsettled
  · exact ⟨call, hsame, hsettled⟩
  · exact ⟨_, hcancelled, rfl⟩

/-- Whatever happens, a call that has been given the types sends nothing more. -/
theorem documentsBy_run (hsound : s.discovery.Sound) (h : s.IsSettled id) (events : List Event) :
    (s.run events).documentsBy id = s.documentsBy id := by
  induction events generalizing s with
  | nil => rfl
  | cons e events ih =>
    exact (ih (step_sound hsound e) (h.step e)).trans (documentsBy_step hsound h e)

/-! ## Starting with the types known -/

/-- What a text is compiled to: a document if it is a query and some type is eligible. -/
def Compiles (s : Session) (types : List DocumentType) (raw : Text)
    (document : Option SearchDocument) : Prop :=
  if Constraints.isQuery raw then s.searchFor types raw = .ok document else document = none

theorem exists_compiles (hpage : SearchDocument.checkPageSize s.pageSize = .ok ())
    (types : List DocumentType) (raw : Text) : ∃ document, s.Compiles types raw document := by
  unfold Compiles
  split
  · cases hsearch : s.searchFor types raw with
    | ok document => exact ⟨document, rfl⟩
    | error c =>
      have hrefused := searchFor_eq_error hsearch
      rw [hpage] at hrefused
      cases hrefused
  · exact ⟨none, rfl⟩

theorem exists_searchFor (hpage : SearchDocument.checkPageSize s.pageSize = .ok ())
    (hne : resolveTypes types (.ofText raw) ≠ []) : ∃ d, s.searchFor types raw = .ok (some d) := by
  unfold searchFor
  split
  · exact absurd ‹_› hne
  · exact ⟨_, congrArg (Except.map some) (SearchDocument.ofResolutions_eq_ok hpage)⟩

/-- The text that a search for a document sends, if it can be written. -/
def textsOf (document : Option SearchDocument) : List Text :=
  document.toList.filterMap (·.render.toOption)

theorem textsOf_some (d : SearchDocument) : textsOf (some d) = d.render.toOption.toList := by
  cases hrender : d.render.toOption <;> simp [textsOf, hrender]

theorem Compiles.searchFor_eq {d : SearchDocument} (h : s.Compiles types raw (some d)) :
    Constraints.isQuery raw = true ∧ s.searchFor types raw = .ok (some d) := by
  unfold Compiles at h
  split at h
  · exact ⟨‹_›, h⟩
  · cases h

variable {document : Option SearchDocument}

theorem start_compile (htypes : s.discovery.types = some types)
    (h : s.Compiles types raw document) : s.step (.start (.compile raw)) =
      (s.enter (.compile raw)).1.finish s.calls.length (.ok (.document document)) := by
  unfold Compiles at h
  split at h
  · rename_i hquery
    exact start_compile_of_searchFor htypes hquery h
  · rename_i hquery
    subst h
    simp [Session.step, start, hquery]

theorem start_trigger (htypes : s.discovery.types = some types)
    (h : s.Compiles types raw document) :
    (s.step (.start (.trigger raw))).IsSettled s.calls.length ∧
    (s.step (.start (.trigger raw))).sent =
      s.sent ++ (textsOf document).map (.call s.calls.length, ·) := by
  have hentered := enter_getElem? s (.trigger raw)
  unfold Compiles at h
  split at h
  · rename_i hquery
    cases document with
    | none =>
      have hsearch : (s.enter (.trigger raw)).1.searchFor types raw = .ok none := h
      rw [start_trigger_of_known htypes hquery, search, hsearch]
      exact ⟨.of_modify hentered (conclude_calls _) rfl, by simp [textsOf]⟩
    | some d =>
      refine ⟨?_, by rw [sent_start_trigger htypes hquery h, textsOf_some]⟩
      cases hrender : d.render with
      | error c =>
        rw [start_trigger_of_not_render htypes hquery h hrender]
        exact .of_modify hentered rfl rfl
      | ok text =>
        rw [start_trigger_of_render htypes hquery h hrender]
        exact .of_modify hentered rfl rfl
  · rename_i hquery
    subst h
    have hneeds : Request.needsTypes (.trigger raw) = false := by simp [needsTypes_trigger, hquery]
    refine ⟨?_, ?_⟩
    · simp only [Session.step, start, hquery]
      split
      · exact .of_modify hentered (conclude_calls _) rfl
      · exact .of_modify hentered (conclude_calls _) rfl
    · rw [Session.step, (start_of_not_needsTypes hneeds).2]
      simp [textsOf]

/-- A search whose document cannot be written crashes. -/
theorem start_trigger_crash {d : SearchDocument} {c : Crash}
    (htypes : s.discovery.types = some types) (h : s.Compiles types raw (some d))
    (hrender : d.render = .error c) :
    ((s.step (.start (.trigger raw))).calls[s.calls.length]?).map Call.stage =
      some (.finished (.error (.crash c))) := by
  obtain ⟨hquery, h⟩ := h.searchFor_eq
  rw [start_trigger_of_not_render htypes hquery h hrender, finish, setStage,
    List.getElem?_modify_eq, enter_getElem?]
  rfl

theorem documentsBy_new {pageSize : Value} (hbacked : Backed pageSize s) :
    s.documentsBy s.calls.length = [] := by
  rw [documentsBy, List.map_eq_nil_iff, List.filter_eq_nil_iff]
  rintro ⟨sender, text⟩ hmem hsender
  obtain rfl : sender = .call s.calls.length := by simpa using hsender
  obtain ⟨call, -, -, -, hcall, -⟩ := hbacked.sent _ text hmem
  exact absurd (List.getElem?_eq_some_iff.mp hcall).1 (Nat.lt_irrefl _)

theorem SameDisplay.trans {s'' : Session} (h : SameDisplay s s') (h' : SameDisplay s' s'') :
    SameDisplay s s'' :=
  ⟨h'.published.trans h.published, h'.view.trans h.view, h'.lastQueried.trans h.lastQueried⟩

/-- Compilations change nothing but the list of calls. -/
theorem run_compile (htypes : s.discovery.types = some types)
    (hpage : SearchDocument.checkPageSize s.pageSize = .ok ()) (raws : List Text) :
    let s' := s.run (raws.map fun raw => .start (.compile raw))
    SameDisplay s s' ∧ s'.latest = s.latest ∧ s'.sent = s.sent := by
  induction raws generalizing s with
  | nil => exact ⟨.refl s, rfl, rfl⟩
  | cons raw raws ih =>
    obtain ⟨document, hcompiles⟩ := exists_compiles hpage types raw
    have hstep := start_compile htypes hcompiles
    have hsame : SameDisplay s (s.step (.start (.compile raw))) := by
      rw [hstep]
      exact ⟨rfl, rfl, rfl⟩
    obtain ⟨hdisplay, hlatest, hsent⟩ := ih (s := s.step (.start (.compile raw)))
      (by rw [hstep]; exact htypes) (by rw [hstep]; exact hpage)
    refine ⟨hsame.trans hdisplay, hlatest.trans ?_, hsent.trans ?_⟩ <;> rw [hstep] <;> rfl

/-- What a text is compiled to depends on the types and the page size alone. -/
theorem compiles_congr (h : s'.pageSize = s.pageSize) :
    s'.Compiles types raw document ↔ s.Compiles types raw document := by
  unfold Compiles searchFor
  rw [h]

/-- **A compilation answers with the document that a search sends.** Once types are known, a text
has one document or none, whatever happens before it is used: a compilation answers with it, and a
search sends it when it starts, and never anything else. Only a document whose page size has too
many digits is not sent, since it cannot be written; the search then crashes. Any number of
compilations leave the view, the numbering of the searches and the documents as they were. -/
theorem compilation_explains {pageSize : Int} {events : List Event} (hpage : 1 ≤ pageSize)
    (htypes : (run { pageSize := .int pageSize } events).discovery.types = some types)
    (raw : Text) : ∃ document : Option SearchDocument,
      (∀ d, document = some d →
        (pageSize < 10 ^ Number.maxDigits → ∃ text, d.render = .ok text) ∧
        (10 ^ Number.maxDigits ≤ pageSize → d.render = .error .tooManyDigits)) ∧
      ∀ later : List Event, let s := run { pageSize := .int pageSize } (events ++ later)
        (s.step (.start (.compile raw))).calls[s.calls.length]? =
            some { request := .compile raw, stage := .finished (.ok (.document document)) } ∧
          (s.step (.start (.trigger raw))).sent =
            s.sent ++ (textsOf document).map (.call s.calls.length, ·) ∧
          (∀ d c, document = some d → d.render = .error c →
            ((s.step (.start (.trigger raw))).calls[s.calls.length]?).map Call.stage =
              some (.finished (.error (.crash c)))) ∧
          (∀ after, ((s.step (.start (.trigger raw))).run after).documentsBy s.calls.length =
            textsOf document) ∧
          ∀ raws : List Text, let s' := s.run (raws.map fun raw => .start (.compile raw))
            s'.view = s.view ∧ s'.lastQueried = s.lastQueried ∧ s'.published = s.published ∧
              s'.latest = s.latest ∧ s'.sent = s.sent := by
  have hsize : (run { pageSize := .int pageSize } events).pageSize = .int pageSize :=
    (backed _ events).pageSize_eq
  have haccepted := SearchDocument.checkPageSize_int hpage
  obtain ⟨document, hdocument⟩ := exists_compiles (hsize ▸ haccepted) types raw
  refine ⟨document, fun d hd => ?_, fun later => ?_⟩
  · obtain ⟨hok, herror⟩ := render_of_searchFor (hd ▸ hdocument).searchFor_eq.2
    rw [hsize] at hok herror
    exact ⟨fun hshort => hok _ (Value.literal_int_of_lt (by omega) hshort),
      fun hlong => herror _ (Value.literal_int_of_le (by omega) hlong)⟩
  intro s
  have hbacked : Backed (.int pageSize) s := backed _ (events ++ later)
  have hsound : s.discovery.Sound := (charted _ (events ++ later)).sound
  have hknown : s.discovery.types = some types := by
    have hgrows := run_grows (charted (.int pageSize) events).sound later
    rw [← run_append] at hgrows
    exact hgrows.types types htypes
  have hcompiles : s.Compiles types raw document :=
    (compiles_congr (hbacked.pageSize_eq.trans hsize.symm)).mpr hdocument
  obtain ⟨hsettled, hsent⟩ := start_trigger hknown hcompiles
  refine ⟨?_, hsent, fun d c hd => ?_, fun after => ?_, fun raws => ?_⟩
  · rw [start_compile hknown hcompiles, getElem?_finish_compile]
  · exact start_trigger_crash hknown (hd ▸ hcompiles)
  · have hnone := documentsBy_new hbacked
    rw [documentsBy] at hnone
    have hall : ((textsOf document).map (Sender.call s.calls.length, ·)).filter
        (·.1 = .call s.calls.length) = (textsOf document).map (Sender.call s.calls.length, ·) :=
      List.filter_eq_self.mpr (by simp)
    rw [documentsBy_run (step_sound hsound _) hsettled, documentsBy, hsent, List.filter_append,
      List.map_append, hnone, hall, List.map_map]
    exact List.map_id _
  · obtain ⟨⟨hpublished, hview, hlast⟩, hlatest, hsent⟩ :=
      run_compile hknown (hbacked.pageSize_eq ▸ haccepted) raws
    exact ⟨hview, hlast, hpublished, hlatest, hsent⟩

theorem compilation_explains_articles :
    1 ≤ (50 : Int) ∧
    (run { pageSize := .int 50 } discoveredArticles).discovery.types =
      some [DocumentType.articles] ∧
    ∃ document : Option SearchDocument, ∀ later : List Event,
      let s := run { pageSize := .int 50 } (discoveredArticles ++ later)
      (s.step (.start (.trigger "title: cats"))).sent =
        s.sent ++ (textsOf document).map (.call s.calls.length, ·) := by
  obtain ⟨document, -, hlater⟩ :=
    compilation_explains (by decide) (types_discoveredArticles (.int 50)) "title: cats"
  exact ⟨by decide, types_discoveredArticles (.int 50), document, fun later => (hlater later).2.1⟩

theorem unsent_of_tooLong (hbacked : Backed (.int Number.tooLong) s)
    (htypes : s.discovery.types = some types) (hquery : Constraints.isQuery raw = true)
    (hne : resolveTypes types (.ofText raw) ≠ []) :
    ∃ d, (s.step (.start (.compile raw))).calls[s.calls.length]? =
        some { request := .compile raw, stage := .finished (.ok (.document (some d))) } ∧
      ∀ text, (.call s.calls.length, text) ∉ (s.step (.start (.trigger raw))).sent := by
  have haccepted := SearchDocument.checkPageSize_int Number.one_le_tooLong
  have hlong := Value.literal_int_of_le (Int.le_of_lt Number.one_le_tooLong) Number.pow_le_tooLong
  obtain ⟨d, hsearch⟩ := exists_searchFor (hbacked.pageSize_eq ▸ haccepted) hne
  have hrender := (render_of_searchFor hsearch).2 _ (hbacked.pageSize_eq ▸ hlong)
  refine ⟨d, ?_, fun text hsent => ?_⟩
  · rw [start_compile_of_searchFor htypes hquery hsearch, getElem?_finish_compile]
  rw [sent_start_trigger htypes hquery hsearch, hrender] at hsent
  have hold := (List.mem_append.mp hsent).resolve_right List.not_mem_nil
  obtain ⟨call, -, -, -, hcall, -⟩ := hbacked.sent _ text hold
  exact Nat.lt_irrefl _ (List.getElem?_eq_some_iff.mp hcall).1

/-- With too long a page size, a text is compiled to a document that no search sends. -/
theorem unexplained_articles :
    ¬ ∀ (pageSize : Int) (events : List Event) (raw : Text) (document : SearchDocument),
      1 ≤ pageSize → let s := run { pageSize := .int pageSize } events
      s.discovery.types = some [DocumentType.articles] →
      (s.step (.start (.compile raw))).calls[s.calls.length]? =
        some { request := .compile raw, stage := .finished (.ok (.document (some document))) } →
      ∃ text, (.call s.calls.length, text) ∈ (s.step (.start (.trigger raw))).sent := by
  intro h
  have htypes := types_discoveredArticles (.int Number.tooLong)
  have hne : resolveTypes [DocumentType.articles] (.ofText "title: cats") ≠ [] := by decide
  obtain ⟨d, hcompile, hunsent⟩ :=
    unsent_of_tooLong (backed _ discoveredArticles) htypes rfl hne
  obtain ⟨text, hsent⟩ := h _ _ _ d Number.one_le_tooLong htypes hcompile
  exact hunsent text hsent

end Session

end FieldSearch
