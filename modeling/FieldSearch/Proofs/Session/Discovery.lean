import FieldSearch.Proofs.Schema.Flights
import FieldSearch.Session.Step

/-!
# Discovery in a session

Calls, replies and cancellations reach the discovery of a session in four ways: a call opens a
flight, a call gives a failed flight up, a flight takes a reply, or nothing changes. From this it
follows what every flight has sent and where its types come from.
-/

namespace FieldSearch

open GraphQL (typesDocument inputsDocument)

/-- Whether a call with this request turns to the schema. -/
def Request.needsTypes : Request → Bool
  | .trigger raw => !(Text.trim raw).isEmpty && Constraints.isQuery raw
  | .compile raw => Constraints.isQuery raw
  | .suggest _ | .documentTypes => true

namespace Session

/-- The documents that a flight has sent. -/
def documentsOf (s : Session) (n : Nat) : List Text :=
  (s.sent.filter (·.1 = .flight n)).map Prod.snd

/-! ## What leaves the discovery alone -/

section

variable (s : Session) (id : Nat)

@[simp] theorem setStage_discovery (stage : Stage) :
    (s.setStage id stage).discovery = s.discovery := rfl

@[simp] theorem setStage_sent (stage : Stage) : (s.setStage id stage).sent = s.sent := rfl

@[simp] theorem finish_discovery (result : Except Failure Answer) :
    (s.finish id result).discovery = s.discovery := rfl

@[simp] theorem finish_sent (result : Except Failure Answer) :
    (s.finish id result).sent = s.sent := rfl

@[simp] theorem send_discovery (sender : Sender) (document : Text) :
    (s.send sender document).discovery = s.discovery := rfl

@[simp] theorem send_sent (sender : Sender) (document : Text) :
    (s.send sender document).sent = s.sent ++ [(sender, document)] := rfl

@[simp] theorem conclude_discovery (o : Outcome) : (s.conclude id o).discovery = s.discovery := by
  unfold conclude publish
  cases o.status <;> rfl

@[simp] theorem conclude_sent (o : Outcome) : (s.conclude id o).sent = s.sent := by
  unfold conclude publish
  cases o.status <;> rfl

@[simp] theorem enter_discovery (request : Request) :
    (s.enter request).1.discovery = s.discovery := by
  cases request <;> rfl

@[simp] theorem enter_sent (request : Request) : (s.enter request).1.sent = s.sent := by
  cases request <;> rfl

@[simp] theorem search_discovery (seq : Nat) (types : List DocumentType) (raw : Text) :
    (s.search id seq types raw).discovery = s.discovery := by
  unfold search
  repeat' split
  all_goals simp

@[simp] theorem proceed_discovery (types : List DocumentType) (call : Call) :
    (s.proceed id types call).discovery = s.discovery := by
  unfold proceed
  split <;> simp

@[simp] theorem giveUp_discovery (f : Failure) (call : Call) :
    (s.giveUp id f call).discovery = s.discovery := by
  unfold giveUp
  repeat' split
  all_goals simp

@[simp] theorem giveUp_sent (f : Failure) (call : Call) : (s.giveUp id f call).sent = s.sent := by
  unfold giveUp
  repeat' split
  all_goals simp

@[simp] theorem receive_discovery (seq : Nat) (raw : Text) (rootFields : List Text)
    (reply : Except Failure Json) :
    (s.receive id seq raw rootFields reply).discovery = s.discovery := by
  unfold receive
  repeat' split
  all_goals simp

@[simp] theorem receive_sent (seq : Nat) (raw : Text) (rootFields : List Text)
    (reply : Except Failure Json) : (s.receive id seq raw rootFields reply).sent = s.sent := by
  unfold receive
  repeat' split
  all_goals simp

theorem documentsOf_send_flight (n m : Nat) (document : Text) :
    (s.send (.flight n) document).documentsOf m =
      s.documentsOf m ++ if n = m then [document] else [] := by
  by_cases h : n = m <;> simp [documentsOf, h]

theorem documentsOf_proceed (types : List DocumentType) (call : Call) (m : Nat) :
    (s.proceed id types call).documentsOf m = s.documentsOf m := by
  unfold proceed
  split
  · unfold search
    repeat' split
    all_goals simp [documentsOf]
  all_goals simp [documentsOf]

end

theorem ending?_eq_some {s : Session} {call : Call} {n : Nat}
    {ending : Except Failure (List DocumentType)} (h : s.ending? call = some (n, ending)) :
    call.stage = .waiting n ∧ s.discovery.ending? n = some ending := by
  unfold ending? at h
  split at h
  · rename_i m hstage
    obtain ⟨ending', hm, heq⟩ := Option.map_eq_some_iff.mp h
    cases heq
    exact ⟨hstage, hm⟩
  · cases h

theorem answer_flight (s : Session) (n : Nat) (reply : Except Failure Json) :
    ∃ documents, s.answer (.flight n) reply =
        { s with
          discovery := (s.discovery.receive n reply).1
          sent := s.sent ++ documents } ∧
      ∀ entry ∈ documents, entry.1 = .flight n := by
  unfold answer
  cases hnext : (s.discovery.receive n reply).2 with
  | none => exact ⟨[], by simp [hnext], nofun⟩
  | some document => exact ⟨[(.flight n, document)], by simp [hnext, send], by simp⟩

/-! ## What a step does to the discovery -/

/-- What an event makes of a discovery, and the documents that flights send then. -/
inductive Evolves (d : Discovery) : Event → Discovery → List (Nat × Text) → Prop
  | same {e} : Evolves d e d []
  | launched {request} : d.types = none → d.current = none →
      Evolves d (.start request) d.launch.1 [(d.flights.length, typesDocument)]
  | dropped {e} (n : Nat) (f : Failure) : d.current = some n → d.flights[n]? = some (.failed f) →
      Evolves d e { d with current := none } []
  | received (n : Nat) (reply d' next) : d.Received n reply d' next →
      Evolves d (.answer (.flight n) reply) d' (next.toList.map (n, ·))

variable {s s' : Session}

/-- The discovery evolves, and the flights send what they send then. -/
def EvolvesTo (s : Session) (e : Event) (s' : Session) : Prop :=
  ∃ documents, Evolves s.discovery e s'.discovery documents ∧
    ∀ m, s'.documentsOf m = s.documentsOf m ++ (documents.filter (·.1 = m)).map Prod.snd

theorem EvolvesTo.same {e : Event} (hd : s'.discovery = s.discovery)
    (hsent : ∀ m, s'.documentsOf m = s.documentsOf m) : EvolvesTo s e s' :=
  ⟨[], hd ▸ .same, fun m => by simp [hsent m]⟩

theorem EvolvesTo.leave {e : Event} (n : Nat) (hd : s'.discovery = s.discovery.leave n)
    (hsent : ∀ m, s'.documentsOf m = s.documentsOf m) : EvolvesTo s e s' := by
  obtain hleave | ⟨f, hcurrent, hfailed, hleave⟩ := s.discovery.leave_cases n
  · exact .same (hd.trans hleave) hsent
  · exact ⟨[], by rw [hd, hleave]; exact .dropped n f hcurrent hfailed, fun m => by simp [hsent m]⟩

theorem discover_evolves (hsound : s.discovery.Sound) (id : Nat) (call : Call) (request : Request) :
    EvolvesTo s (.start request) (s.discover id call) := by
  unfold discover
  have henroll := hsound.enroll_cases
  generalize s.discovery.enroll = entry at henroll
  obtain ⟨d, admission⟩ := entry
  cases henroll with
  | known types htypes => exact .same (by simp) (documentsOf_proceed _ _ _ _)
  | opened htypes hcurrent =>
    refine ⟨_, .launched htypes hcurrent, fun m => ?_⟩
    simp only [documentsOf_send_flight]
    by_cases hm : s.discovery.flights.length = m <;> simp [documentsOf, hm]
  | refused n f htypes hcurrent hfailed =>
    refine ⟨[], ?_, fun m => by simp [documentsOf]⟩
    simp only [giveUp_discovery]
    exact .dropped n f hcurrent hfailed
  | waiting n => exact .same rfl fun m => rfl

theorem start_of_needsTypes {request : Request} (h : request.needsTypes = true) :
    s.start request = (s.enter request).1.discover s.calls.length (s.enter request).2 := by
  unfold start
  cases request with
  | trigger raw =>
    simp only [Request.needsTypes, Bool.and_eq_true, Bool.not_eq_true'] at h
    simp [h.1, h.2]
  | compile raw =>
    simp only [Request.needsTypes] at h
    simp [h]
  | suggest _ | documentTypes => rfl

theorem start_of_not_needsTypes {request : Request} (h : request.needsTypes = false) :
    (s.start request).discovery = s.discovery ∧ (s.start request).sent = s.sent := by
  unfold start
  cases request with
  | trigger raw =>
    simp only [Request.needsTypes, Bool.and_eq_false_iff, Bool.not_eq_false'] at h
    by_cases hblank : (Text.trim raw).isEmpty = true
    · simp [hblank]
    · simp [hblank, h.resolve_left hblank]
  | compile raw =>
    simp only [Request.needsTypes] at h
    simp [h]
  | suggest _ | documentTypes => cases h

theorem step_evolves (hsound : s.discovery.Sound) (e : Event) : EvolvesTo s e (s.step e) := by
  cases e with
  | start request =>
    have hdocs : ∀ m, (s.enter request).1.documentsOf m = s.documentsOf m := fun m => by
      simp [documentsOf]
    by_cases hneeds : request.needsTypes = true
    · have h : EvolvesTo (s.enter request).1 (.start request) (s.step (.start request)) := by
        simp only [Session.step, start_of_needsTypes hneeds]
        exact discover_evolves (by rwa [enter_discovery]) _ _ _
      obtain ⟨documents, hevolves, hsent⟩ := h
      rw [enter_discovery] at hevolves
      exact ⟨documents, hevolves, fun m => by rw [hsent m, hdocs m]⟩
    · obtain ⟨hd, hsent⟩ := start_of_not_needsTypes (s := s) (Bool.eq_false_iff.mpr hneeds)
      exact .same hd fun m => by simp only [Session.step, documentsOf, hsent]
  | answer sender reply =>
    cases sender with
    | flight n =>
      simp only [Session.step, answer]
      have hreceived := s.discovery.receive_cases n reply
      generalize s.discovery.receive n reply = received at hreceived
      obtain ⟨d, next⟩ := received
      cases next with
      | none => exact ⟨_, .received n reply d none hreceived, fun m => by simp [documentsOf]⟩
      | some document =>
        refine ⟨_, .received n reply d (some document) hreceived, fun m => ?_⟩
        simp only [documentsOf_send_flight]
        by_cases hm : n = m <;> simp [documentsOf, hm]
    | call id =>
      simp only [Session.step, answer]
      split
      · exact .same (by simp) fun m => by simp [documentsOf]
      · exact .same rfl fun m => rfl
  | wake id =>
    simp only [Session.step, wake]
    split
    · exact .same rfl fun m => rfl
    · split
      · exact .same rfl fun m => rfl
      · rename_i n ending hending
        split
        · exact .leave n (by simp) fun m => documentsOf_proceed _ _ _ _ _
        · exact .leave n (by simp) fun m => by simp [documentsOf]
  | cancel id =>
    simp only [Session.step, cancel]
    split
    · rename_i n hstage
      exact .leave n rfl fun m => rfl
    · exact .same rfl fun m => rfl
    · exact .same rfl fun m => rfl

/-! ## What every flight has done -/

theorem Evolves.sound {d d' : Discovery} {e : Event} {documents : List (Nat × Text)}
    (h : Evolves d e d' documents) (hsound : d.Sound) : d'.Sound := by
  cases h with
  | same => exact hsound
  | launched htypes hcurrent => exact hsound.launch htypes hcurrent
  | dropped n f hcurrent hfailed => exact hsound.drop hcurrent hfailed
  | received n reply d' next hreceived => exact hsound.received hreceived

theorem Evolves.grows {d d' : Discovery} {e : Event} {documents : List (Nat × Text)}
    (h : Evolves d e d' documents) (hsound : d.Sound) : d.Grows d' := by
  cases h with
  | same => exact .refl d
  | launched htypes => exact Discovery.grows_launch htypes
  | dropped => exact ⟨fun _ h => h, Nat.le_refl _, fun _ _ h => h⟩
  | received n reply d' next hreceived => exact hsound.grows_received hreceived

theorem step_sound (hsound : s.discovery.Sound) (e : Event) : (s.step e).discovery.Sound := by
  obtain ⟨documents, hevolves, -⟩ := step_evolves hsound e
  exact hevolves.sound hsound

theorem step_grows (hsound : s.discovery.Sound) (e : Event) :
    s.discovery.Grows (s.step e).discovery := by
  obtain ⟨documents, hevolves, -⟩ := step_evolves hsound e
  exact hevolves.grows hsound

theorem run_append (s : Session) (before after : List Event) :
    s.run (before ++ after) = (s.run before).run after := List.foldl_append

theorem run_concat (s : Session) (events : List Event) (e : Event) :
    s.run (events ++ [e]) = (s.run events).step e := run_append s events [e]

theorem run_grows (hsound : s.discovery.Sound) (events : List Event) :
    s.discovery.Grows (s.run events).discovery := by
  induction events generalizing s with
  | nil => exact .refl _
  | cons e events ih => exact (step_grows hsound e).trans (ih (step_sound hsound e))

/-- A reply to the flight has named these filter types. -/
def Listed (events : List Event) (n : Nat) (names : List Text) : Prop :=
  ∃ response, .answer (.flight n) (.ok response) ∈ events ∧
    Schema.filterTypeNames response = .ok names

/-- A reply to the flight has described these filter types, as document types. -/
def Detailed (events : List Event) (n : Nat) (names : List Text) (types : List DocumentType) :
    Prop :=
  ∃ response, .answer (.flight n) (.ok response) ∈ events ∧
    Schema.documentTypes response names = .ok types

/-- How a flight has come to its stage in the course of some events, with the documents that it
has sent. It asks for the fields of the filter types only once it knows that there are some. -/
inductive Flown (events : List Event) (n : Nat) : Flight → List Text → Prop
  | listing : Flown events n .listing [typesDocument]
  | detailing (names) : Listed events n names → names ≠ [] →
      Flown events n (.detailing names) [typesDocument, inputsDocument names]
  | landedEmpty : Listed events n [] → Flown events n (.landed []) [typesDocument]
  | landed (names types) : Listed events n names → names ≠ [] → Detailed events n names types →
      Flown events n (.landed types) [typesDocument, inputsDocument names]
  | failedListing (f) : Flown events n (.failed f) [typesDocument]
  | failedDetailing (names f) : Listed events n names → names ≠ [] →
      Flown events n (.failed f) [typesDocument, inputsDocument names]

theorem Listed.mono {events more : List Event} {n : Nat} {names : List Text}
    (h : Listed events n names) : Listed (events ++ more) n names := by
  obtain ⟨response, hmem, hnames⟩ := h
  exact ⟨response, List.mem_append_left _ hmem, hnames⟩

theorem Detailed.mono {events more : List Event} {n : Nat} {names : List Text}
    {types : List DocumentType} (h : Detailed events n names types) :
    Detailed (events ++ more) n names types := by
  obtain ⟨response, hmem, htypes⟩ := h
  exact ⟨response, List.mem_append_left _ hmem, htypes⟩

theorem Flown.mono {events more : List Event} {n : Nat} {flight : Flight} {documents : List Text}
    (h : Flown events n flight documents) : Flown (events ++ more) n flight documents := by
  cases h with
  | listing => exact .listing
  | detailing names hlisted hne => exact .detailing names hlisted.mono hne
  | landedEmpty hlisted => exact .landedEmpty hlisted.mono
  | landed names types hlisted hne hdetailed =>
    exact .landed names types hlisted.mono hne hdetailed.mono
  | failedListing f => exact .failedListing f
  | failedDetailing names f hlisted hne => exact .failedDetailing names f hlisted.mono hne

theorem Flown.received {events : List Event} {n : Nat} {reply : Except Failure Json}
    {d d' : Discovery} {next : Option Text} {old new : Flight} {documents : List Text}
    (h : Flown events n old documents) (hold : d.flights[n]? = some old)
    (hreceived : d.Received n reply d' next) (hnew : d'.flights[n]? = some new) :
    Flown (events ++ [.answer (.flight n) reply]) n new (documents ++ next.toList) := by
  have hmem : ∀ e, e ∈ events ++ [e] := fun e => List.mem_append_right _ (List.mem_singleton_self e)
  have hset : ∀ flight, d.IsRunning n → (d.set n flight).flights[n]? = some new → flight = new :=
    fun flight hrun h => Option.some.inj ((Discovery.getElem?_set_self hrun flight).symm.trans h)
  cases hreceived with
  | ignored =>
    have hsame : old = new := Option.some.inj (hold.symm.trans hnew)
    subst hsame
    rw [Option.toList_none, List.append_nil]
    exact h.mono
  | failed f hrun =>
    obtain rfl := hset _ hrun hnew
    obtain ⟨flight, hflight, hrunning⟩ := hrun
    rw [hold] at hflight
    cases hflight
    rw [Option.toList_none, List.append_nil]
    cases h with
    | listing => exact .failedListing f
    | detailing names hlisted hne => exact .failedDetailing names f hlisted.mono hne
    | landedEmpty | landed | failedListing | failedDetailing => cases hrunning
  | listed response names hlisting hnames hne =>
    obtain rfl := hset _ ⟨_, hlisting, rfl⟩ hnew
    cases hold.symm.trans hlisting
    cases h with
    | listing => exact .detailing names ⟨response, hmem _, hnames⟩ hne
  | empty response hlisting hnames =>
    obtain rfl := hset _ ⟨_, hlisting, rfl⟩ hnew
    cases hold.symm.trans hlisting
    cases h with
    | listing => exact .landedEmpty ⟨response, hmem _, hnames⟩
  | detailed response names types hdetailing htypes =>
    obtain rfl := hset _ ⟨_, hdetailing, rfl⟩ hnew
    cases hold.symm.trans hdetailing
    cases h with
    | detailing names hlisted hne =>
      exact .landed names types hlisted.mono hne ⟨response, hmem _, htypes⟩

/-- The discovery is sound, and all its flights have flown in the course of the events. -/
structure Charted (events : List Event) (s : Session) : Prop where
  sound : s.discovery.Sound
  flown : ∀ (n : Nat) flight, s.discovery.flights[n]? = some flight →
    Flown events n flight (s.documentsOf n)
  unopened : ∀ n, s.discovery.flights.length ≤ n → s.documentsOf n = []

theorem charted_init (pageSize : GraphQL.Value) : Charted [] { pageSize } := by
  refine ⟨Discovery.sound_init, fun n flight hflight => ?_, fun n hn => rfl⟩
  cases hflight

theorem Charted.step {events : List Event} (h : Charted events s) (e : Event) :
    Charted (events ++ [e]) (s.step e) := by
  obtain ⟨documents, hevolves, hsent⟩ := step_evolves h.sound e
  have hsound := hevolves.sound h.sound
  generalize hd : (s.step e).discovery = d at hevolves hsound
  refine ⟨hd ▸ hsound, fun n flight hflight => ?_, fun n hn => ?_⟩
  · rw [hd] at hflight
    rw [hsent n]
    cases hevolves with
    | same | dropped => simpa using (h.flown n flight hflight).mono
    | launched htypes hcurrent =>
      rw [Discovery.getElem?_launch] at hflight
      split at hflight
      · rename_i hn
        cases hflight
        simpa [hn, h.unopened _ (Nat.le_refl _)] using Flown.listing
      · rename_i hn
        simpa [Ne.symm hn] using (h.flown n flight hflight).mono
    | received m reply d' next hreceived =>
      by_cases hm : m = n
      · subst hm
        have hlt := (List.getElem?_eq_some_iff.mp hflight).1
        rw [hreceived.length_eq] at hlt
        have hold := List.getElem?_eq_getElem hlt
        have hflown := (h.flown m _ hold).received hold hreceived hflight
        cases next with
        | none => simpa using hflown
        | some document => simpa using hflown
      · rw [hreceived.getElem?_ne hm] at hflight
        cases next with
        | none => simpa using (h.flown n flight hflight).mono
        | some document => simpa [hm] using (h.flown n flight hflight).mono
  · rw [hd] at hn
    rw [hsent n]
    cases hevolves with
    | same | dropped => simpa using h.unopened n hn
    | launched htypes hcurrent =>
      simp only [Discovery.launch, List.length_append, List.length_singleton] at hn
      have hne : s.discovery.flights.length ≠ n := by omega
      simpa [hne] using h.unopened n (by omega)
    | received m reply d' next hreceived =>
      rw [hreceived.length_eq] at hn
      by_cases hm : m = n
      · subst hm
        have hidle : ¬ s.discovery.IsRunning m := fun hrun =>
          Nat.not_lt.mpr hn (Discovery.isRunning_lt hrun)
        rw [(hreceived.of_not_running hidle).2]
        simpa using h.unopened m hn
      · cases next with
        | none => simpa using h.unopened n hn
        | some document => simpa [hm] using h.unopened n hn

theorem Charted.run {before : List Event} (h : Charted before s) (events : List Event) :
    Charted (before ++ events) (s.run events) := by
  induction events generalizing before s with
  | nil => rwa [List.append_nil]
  | cons e events ih =>
    have hrest := ih (h.step e)
    rwa [List.append_assoc, List.singleton_append] at hrest

theorem charted (pageSize : GraphQL.Value) (events : List Event) :
    Charted events (Session.run { pageSize } events) :=
  (charted_init pageSize).run events

/-- Types become known from a response only. -/
theorem types_eq_none {pageSize : GraphQL.Value} {events : List Event}
    (h : ∀ sender response, .answer sender (.ok response) ∉ events) :
    (Session.run { pageSize } events).discovery.types = none := by
  have hcharted := charted pageSize events
  cases htypes : (Session.run { pageSize } events).discovery.types with
  | none => rfl
  | some types =>
    obtain ⟨n, -, hlanded⟩ := hcharted.sound.known types htypes
    have hflown := hcharted.flown n _ hlanded
    generalize (Session.run { pageSize } events).documentsOf n = documents at hflown
    have hlisted : ∀ names, ¬ Listed events n names := by
      rintro names ⟨response, hmem, -⟩
      exact h _ response hmem
    cases hflown with
    | landedEmpty hempty => exact absurd hempty (hlisted [])
    | landed names _ hnames => exact absurd hnames (hlisted names)

end Session

end FieldSearch
