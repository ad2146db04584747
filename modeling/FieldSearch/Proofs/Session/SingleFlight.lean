import FieldSearch.Proofs.Schema.Response
import FieldSearch.Proofs.Session.Answers

/-!
# One discovery for a whole session

However calls, replies and cancellations follow upon each other, there is at most one flight under
way, the types become known once and as a whole, and everybody gets the same ones.
-/

namespace FieldSearch

open GraphQL (SearchDocument)

namespace Session

variable {s : Session} {types : List DocumentType}

theorem Evolves.documents_eq_nil {d d' : Discovery} {e : Event} {documents : List (Nat × Text)}
    (h : Evolves d e d' documents) (hsound : d.Sound) (htypes : d.types = some types) :
    documents = [] := by
  cases h with
  | same | dropped => rfl
  | launched hnone => exact absurd (hnone.symm.trans htypes) nofun
  | received n reply d' next hreceived =>
    rw [(hreceived.of_not_running (hsound.not_running htypes)).2]
    rfl

/-- Nothing is asked of the schema once its types are known. -/
theorem documentsOf_run (hsound : s.discovery.Sound) (htypes : s.discovery.types = some types)
    (more : List Event) (n : Nat) : (s.run more).documentsOf n = s.documentsOf n := by
  induction more generalizing s with
  | nil => rfl
  | cons e more ih =>
    obtain ⟨documents, hevolves, hsent⟩ := step_evolves hsound e
    have hstep : (s.step e).documentsOf n = s.documentsOf n := by
      rw [hsent n, hevolves.documents_eq_nil hsound htypes]
      exact List.append_nil _
    have hknown := (step_grows hsound e).types types htypes
    exact (ih (step_sound hsound e) hknown).trans hstep

theorem types_eq_none_of_failing (hsound : s.discovery.Sound) (e : Event) (n : Nat) (f : Failure)
    (hfailed : (s.step e).discovery.flights[n]? = some (.failed f))
    (hbefore : s.discovery.flights[n]? ≠ some (.failed f)) : (s.step e).discovery.types = none := by
  obtain ⟨documents, hevolves, -⟩ := step_evolves hsound e
  generalize (s.step e).discovery = d at hevolves hfailed
  cases hevolves with
  | same | dropped => exact absurd hfailed hbefore
  | launched htypes => exact htypes
  | received m reply d' next hreceived =>
    by_cases hrun : s.discovery.IsRunning m
    · have hnone := hsound.types_eq_none hrun
      cases hreceived with
      | ignored | failed | listed => exact hnone
      | empty | detailed =>
        -- the flight that takes the reply lands, and all others are as they were
        by_cases hm : m = n
        · subst hm
          rw [Discovery.land, Discovery.getElem?_set_self hrun] at hfailed
          cases hfailed
        · rw [Discovery.land, Discovery.getElem?_set_ne hm] at hfailed
          exact absurd hfailed hbefore
    · rw [(hreceived.of_not_running hrun).1] at hfailed
      exact absurd hfailed hbefore

theorem inputTypes_of_detailed {events : List Event} {n : Nat} {names : List Text}
    (h : Detailed events n names types) : types.map DocumentType.inputType = names := by
  obtain ⟨response, -, hread⟩ := h
  rw [Schema.documentTypes_eq_ok hread, List.map_map]
  exact List.map_id names

/-- **The types are discovered once.** At most one flight is under way. It asks for the names of the
types, and for the fields of the filter types once it knows that there are some; a call sends
nothing but searches. The types become known as a whole and stay what they are, and from then on no
flight sends anything. A flight that fails leaves them unknown. Every answer comes from the known
types, unless the call has had to do without them. -/
theorem discovered_once (pageSize : GraphQL.Value) (events : List Event) :
    let s := run { pageSize } events
    (∀ m n, s.discovery.IsRunning m → s.discovery.IsRunning n → m = n) ∧
    (∀ types, s.discovery.types = some types →
      (∃ n names, Listed events n names ∧ types.map DocumentType.inputType = names ∧
        s.discovery.flights[n]? = some (.landed types)) ∧
      ∀ more, (s.run more).discovery.types = some types ∧
        ∀ n, (s.run more).documentsOf n = s.documentsOf n) ∧
    (∀ (n : Nat) flight, s.discovery.flights[n]? = some flight →
      Flown events n flight (s.documentsOf n)) ∧
    (∀ n, s.discovery.flights.length ≤ n → s.documentsOf n = []) ∧
    (∀ (id : Nat) text, (.call id, text) ∈ s.sent → ∃ document : SearchDocument,
      document.render = .ok text) ∧
    (∀ e (n : Nat) f, (s.step e).discovery.flights[n]? = some (.failed f) →
      s.discovery.flights[n]? ≠ some (.failed f) → (s.step e).discovery.types = none) ∧
    (∀ (id : Nat) call answer, s.calls[id]? = some call → call.stage = .finished (.ok answer) →
      Unaided s.discovery call.request answer ∨
        ∃ types, s.discovery.types = some types ∧ Follows pageSize types call.request answer) := by
  intro s
  have hcharted : Charted events s := charted pageSize events
  have hbacked : Backed pageSize s := backed pageSize events
  refine ⟨fun m n hm hn => hcharted.sound.running_eq hm hn, fun types htypes => ⟨?_, fun more => ?_⟩,
    hcharted.flown, hcharted.unopened, fun id text hmem => ?_,
    types_eq_none_of_failing hcharted.sound, ?_⟩
  · obtain ⟨n, -, hlanded⟩ := hcharted.sound.known types htypes
    generalize hdocs : s.documentsOf n = documents
    have hflown := hcharted.flown n _ hlanded
    rw [hdocs] at hflown
    cases hflown with
    | landedEmpty hlisted => exact ⟨n, [], hlisted, rfl, hlanded⟩
    | landed names types hlisted hne hdetailed =>
      exact ⟨n, names, hlisted, inputTypes_of_detailed hdetailed, hlanded⟩
  · exact ⟨(run_grows hcharted.sound more).types types htypes,
      documentsOf_run hcharted.sound htypes more⟩
  · obtain ⟨-, -, -, document, -, -, -, -, htext⟩ := hbacked.sent id text hmem
    exact ⟨document, htext⟩
  · intro id call answer hcall hstage
    obtain ⟨documents, hfares⟩ := hbacked.fares id call hcall
    rw [hstage] at hfares
    cases hfares with
    | unaided answer hanswer => exact Or.inl hanswer
    | answered types answer htypes hanswer => exact Or.inr ⟨types, htypes, hanswer⟩

end Session

end FieldSearch
