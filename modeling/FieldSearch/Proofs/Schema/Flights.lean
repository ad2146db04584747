import FieldSearch.Schema.Discovery

/-!
# Flights of a discovery

A flight is opened only when no other one is the current one, and only the current flight is under
way. So there is never more than one, and once a flight has landed there is none.
-/

namespace FieldSearch

def Flight.isRunning : Flight → Bool
  | listing | detailing _ => true
  | landed _ | failed _ => false

namespace Discovery

def IsRunning (d : Discovery) (n : Nat) : Prop :=
  ∃ flight, d.flights[n]? = some flight ∧ flight.isRunning = true

structure Sound (d : Discovery) : Prop where
  current_lt : ∀ n, d.current = some n → n < d.flights.length
  running : ∀ n, d.IsRunning n → d.current = some n
  landed : ∀ (n : Nat) types, d.flights[n]? = some (.landed types) → d.types = some types
  known : ∀ types, d.types = some types →
    ∃ n : Nat, d.current = some n ∧ d.flights[n]? = some (.landed types)

theorem sound_init : Sound {} := by
  refine ⟨nofun, ?_, nofun, nofun⟩
  rintro n ⟨flight, h, -⟩
  cases h

section

variable {d : Discovery} {n : Nat}

theorem isRunning_of_eq {flight : Flight} (h : d.flights[n]? = some flight)
    (hrun : flight.isRunning = true) : d.IsRunning n := ⟨flight, h, hrun⟩

theorem not_isRunning_of_eq {flight : Flight} (h : d.flights[n]? = some flight)
    (hrun : flight.isRunning = false) : ¬ d.IsRunning n := by
  rintro ⟨flight', h', hrun'⟩
  rw [h] at h'
  cases h'
  rw [hrun] at hrun'
  cases hrun'

theorem Sound.running_eq (h : d.Sound) {m : Nat} (hm : d.IsRunning m) (hn : d.IsRunning n) :
    m = n :=
  Option.some.inj ((h.running m hm).symm.trans (h.running n hn))

theorem Sound.not_running (h : d.Sound) {types : List DocumentType} (htypes : d.types = some types) :
    ¬ d.IsRunning n := by
  intro hrun
  obtain ⟨m, hcurrent, hlanded⟩ := h.known types htypes
  have hm : m = n := Option.some.inj (hcurrent.symm.trans (h.running n hrun))
  subst hm
  exact not_isRunning_of_eq hlanded rfl hrun

theorem Sound.types_eq_none (h : d.Sound) (hrun : d.IsRunning n) : d.types = none := by
  cases htypes : d.types with
  | none => rfl
  | some types => exact absurd hrun (h.not_running htypes)

/-! ## Calls that come -/

/-- How a call that needs the types is received. -/
inductive Enrolled (d : Discovery) : Discovery → Admission → Prop
  | known (types : List DocumentType) : d.types = some types → Enrolled d d (.known types)
  | opened : d.types = none → d.current = none → Enrolled d d.launch.1 (.opened d.flights.length)
  | refused (n : Nat) (f : Failure) : d.types = none → d.current = some n →
      d.flights[n]? = some (.failed f) → Enrolled d { d with current := none } (.refused f)
  | waiting (n : Nat) : d.types = none → d.current = some n → d.IsRunning n →
      Enrolled d d (.waiting n)

theorem Sound.enroll_cases (h : d.Sound) : d.Enrolled d.enroll.1 d.enroll.2 := by
  unfold enroll
  split
  · rename_i types htypes
    exact .known types htypes
  · rename_i htypes hcurrent
    exact .opened htypes hcurrent
  · rename_i n htypes hcurrent
    split
    · rename_i f hflight
      exact .refused n f htypes hcurrent hflight
    · rename_i flight hfailed hflight
      refine .waiting n htypes hcurrent ?_
      cases flight with
      | listing | detailing _ => exact isRunning_of_eq hflight rfl
      | failed f => exact absurd rfl (hfailed f)
      | landed types =>
        have hknown := h.landed n types hflight
        rw [htypes] at hknown
        cases hknown
    · rename_i hflight
      exact absurd (h.current_lt n hcurrent) (Nat.not_lt.mpr (List.getElem?_eq_none_iff.mp hflight))

/-! ## Calls that go -/

theorem leave_cases (d : Discovery) (n : Nat) :
    d.leave n = d ∨ ∃ f, d.current = some n ∧ d.flights[n]? = some (.failed f) ∧
      d.leave n = { d with current := none } := by
  unfold leave
  split
  · rename_i f hflight
    split
    · rename_i hcurrent
      exact Or.inr ⟨f, hcurrent, hflight, rfl⟩
    · exact Or.inl rfl
  · exact Or.inl rfl

theorem types_leave (d : Discovery) (n : Nat) : (d.leave n).types = d.types := by
  obtain h | ⟨f, -, -, h⟩ := leave_cases d n
  · rw [h]
  · rw [h]

theorem flights_leave (d : Discovery) (n : Nat) : (d.leave n).flights = d.flights := by
  obtain h | ⟨f, -, -, h⟩ := leave_cases d n
  · rw [h]
  · rw [h]

theorem ending?_eq_error {f : Failure} (h : d.ending? n = some (.error f)) :
    d.flights[n]? = some (.failed f) := by
  unfold ending? at h
  split at h
  · cases h
  · rename_i f' hflight
    cases h
    exact hflight
  · cases h

theorem ending?_eq_ok {types : List DocumentType} (h : d.ending? n = some (.ok types)) :
    d.flights[n]? = some (.landed types) := by
  unfold ending? at h
  split at h
  · rename_i types' hflight
    cases h
    exact hflight
  · cases h
  · cases h

/-! ## Replies -/

/-- What a reply to a document of a flight makes of the discovery, and what is sent next. -/
inductive Received (d : Discovery) (n : Nat) :
    Except Failure Json → Discovery → Option Text → Prop
  | ignored {reply} : ¬ d.IsRunning n → Received d n reply d none
  | failed {reply} (f : Failure) : d.IsRunning n → Received d n reply (d.set n (.failed f)) none
  | listed (response : Json) (names : List Text) : d.flights[n]? = some .listing →
      Schema.filterTypeNames response = .ok names → names ≠ [] →
      Received d n (.ok response) (d.set n (.detailing names)) (some (GraphQL.inputsDocument names))
  | empty (response : Json) : d.flights[n]? = some .listing →
      Schema.filterTypeNames response = .ok [] → Received d n (.ok response) (d.land n []) none
  | detailed (response : Json) (names : List Text) (types : List DocumentType) :
      d.flights[n]? = some (.detailing names) → Schema.documentTypes response names = .ok types →
      Received d n (.ok response) (d.land n types) none

theorem readReply_eq_ok {α : Type} {reply : Except Failure Json}
    {read : Json → Except SearchError α} {value : α} (h : readReply reply read = .ok value) :
    ∃ response, reply = .ok response ∧ read response = .ok value := by
  unfold readReply at h
  cases reply with
  | error f => cases h
  | ok response =>
    refine ⟨response, rfl, ?_⟩
    simp only at h
    cases hread : read response with
    | error e =>
      rw [hread] at h
      cases h
    | ok v =>
      rw [hread] at h
      cases h
      rfl

theorem receive_cases (d : Discovery) (n : Nat) (reply : Except Failure Json) :
    d.Received n reply (d.receive n reply).1 (d.receive n reply).2 := by
  unfold receive
  split
  · rename_i hflight
    have hrun := isRunning_of_eq hflight rfl
    split
    · exact .failed _ hrun
    · rename_i hread
      obtain ⟨response, rfl, hnames⟩ := readReply_eq_ok hread
      exact .empty response hflight hnames
    · rename_i names hne hread
      obtain ⟨response, rfl, hnames⟩ := readReply_eq_ok hread
      exact .listed response names hflight hnames hne
  · rename_i names hflight
    have hrun := isRunning_of_eq hflight rfl
    split
    · exact .failed _ hrun
    · rename_i types hread
      obtain ⟨response, rfl, htypes⟩ := readReply_eq_ok hread
      exact .detailed response names types hflight htypes
  · rename_i hlisting hdetailing
    refine .ignored ?_
    rintro ⟨flight, hflight, hrun⟩
    cases flight with
    | listing => exact hlisting hflight
    | detailing names => exact hdetailing names hflight
    | landed _ | failed _ => cases hrun

/-! ## Soundness is kept -/

theorem isRunning_lt (hrun : d.IsRunning n) : n < d.flights.length := by
  obtain ⟨flight, hflight, -⟩ := hrun
  exact (List.getElem?_eq_some_iff.mp hflight).1

theorem getElem?_set_self (hrun : d.IsRunning n) (flight : Flight) :
    (d.set n flight).flights[n]? = some flight := by
  simp [set, isRunning_lt hrun]

theorem getElem?_set_ne {m : Nat} (hne : n ≠ m) (flight : Flight) :
    (d.set n flight).flights[m]? = d.flights[m]? := by
  simp [set, hne]

theorem Received.getElem?_ne {m : Nat} {reply : Except Failure Json} {d' : Discovery}
    {next : Option Text} (h : d.Received n reply d' next) (hne : n ≠ m) :
    d'.flights[m]? = d.flights[m]? := by
  cases h with
  | ignored => rfl
  | failed | listed | empty | detailed => exact getElem?_set_ne hne _

theorem Received.length_eq {reply : Except Failure Json} {d' : Discovery} {next : Option Text}
    (h : d.Received n reply d' next) : d'.flights.length = d.flights.length := by
  cases h with
  | ignored => rfl
  | failed | listed | empty | detailed => simp [set, land]

theorem Received.current_eq {reply : Except Failure Json} {d' : Discovery} {next : Option Text}
    (h : d.Received n reply d' next) : d'.current = d.current := by
  cases h with
  | ignored | failed | listed | empty | detailed => rfl

theorem Received.of_not_running {reply : Except Failure Json} {d' : Discovery}
    {next : Option Text} (h : d.Received n reply d' next) (hidle : ¬ d.IsRunning n) :
    d' = d ∧ next = none := by
  cases h with
  | ignored => exact ⟨rfl, rfl⟩
  | failed f hrun => exact absurd hrun hidle
  | listed response names hlisting => exact absurd (isRunning_of_eq hlisting rfl) hidle
  | empty response hlisting => exact absurd (isRunning_of_eq hlisting rfl) hidle
  | detailed response names types hdetailing => exact absurd (isRunning_of_eq hdetailing rfl) hidle

theorem getElem?_launch (d : Discovery) (n : Nat) :
    d.launch.1.flights[n]? =
      if n = d.flights.length then some .listing else d.flights[n]? := by
  simp only [launch, List.getElem?_append]
  split
  · rename_i hlt
    rw [if_neg (Nat.ne_of_lt hlt)]
  · rename_i hge
    split
    · rename_i hn
      simp [hn]
    · rename_i hne
      rw [List.getElem?_eq_none (by simp; omega), List.getElem?_eq_none (by omega)]

theorem Sound.launch (h : d.Sound) (htypes : d.types = none) (hcurrent : d.current = none) :
    d.launch.1.Sound := by
  refine ⟨?_, ?_, ?_, ?_⟩
  · intro n hn
    cases hn
    simp [Discovery.launch]
  · rintro n ⟨flight, hflight, hrun⟩
    rw [getElem?_launch] at hflight
    split at hflight
    · rename_i hn
      rw [hn]
      rfl
    · have := h.running n ⟨flight, hflight, hrun⟩
      rw [hcurrent] at this
      cases this
  · intro n types hflight
    rw [getElem?_launch] at hflight
    split at hflight
    · cases hflight
    · exact h.landed n types hflight
  · intro types hknown
    exact absurd (htypes.symm.trans hknown) nofun

theorem Sound.types_eq_none_of_failed (h : d.Sound) {f : Failure} (hcurrent : d.current = some n)
    (hfailed : d.flights[n]? = some (.failed f)) : d.types = none := by
  cases htypes : d.types with
  | none => rfl
  | some types =>
    obtain ⟨m, hm, hlanded⟩ := h.known types htypes
    rw [hcurrent] at hm
    cases hm
    rw [hfailed] at hlanded
    cases hlanded

theorem Sound.drop (h : d.Sound) {f : Failure} (hcurrent : d.current = some n)
    (hfailed : d.flights[n]? = some (.failed f)) : Sound { d with current := none } := by
  refine ⟨nofun, ?_, h.landed, ?_⟩
  · intro m hrun
    have hm : m = n := Option.some.inj ((h.running m hrun).symm.trans hcurrent)
    subst hm
    exact absurd hrun (not_isRunning_of_eq hfailed rfl)
  · intro types hknown
    exact absurd ((h.types_eq_none_of_failed hcurrent hfailed).symm.trans hknown) nofun

theorem Sound.set (h : d.Sound) (hrun : d.IsRunning n) {flight : Flight}
    (hland : ∀ types, flight ≠ .landed types) : (d.set n flight).Sound := by
  refine ⟨?_, ?_, ?_, ?_⟩
  · intro m hm
    simp only [Discovery.set, List.length_set]
    exact h.current_lt m hm
  · rintro m ⟨flight', hflight, hrun'⟩
    by_cases hm : n = m
    · subst hm
      exact h.running n hrun
    · rw [getElem?_set_ne hm] at hflight
      exact h.running m ⟨flight', hflight, hrun'⟩
  · intro m types hflight
    by_cases hm : n = m
    · subst hm
      rw [getElem?_set_self hrun] at hflight
      exact absurd (Option.some.inj hflight) (hland types)
    · rw [getElem?_set_ne hm] at hflight
      exact h.landed m types hflight
  · intro types hknown
    exact absurd ((h.types_eq_none hrun).symm.trans hknown) nofun

theorem Sound.land (h : d.Sound) (hrun : d.IsRunning n) (types : List DocumentType) :
    (d.land n types).Sound := by
  have hself := getElem?_set_self hrun (.landed types)
  refine ⟨?_, ?_, ?_, ?_⟩
  · intro m hm
    simp only [Discovery.land, Discovery.set, List.length_set]
    exact h.current_lt m hm
  · rintro m ⟨flight', hflight, hrun'⟩
    by_cases hm : n = m
    · subst hm
      exact h.running n hrun
    · exact h.running m ⟨flight', (getElem?_set_ne hm _).symm.trans hflight, hrun'⟩
  · intro m types' hflight
    by_cases hm : n = m
    · subst hm
      have hsame := hself.symm.trans hflight
      cases hsame
      rfl
    · have hold := h.landed m types' ((getElem?_set_ne hm _).symm.trans hflight)
      exact absurd ((h.types_eq_none hrun).symm.trans hold) nofun
  · intro types' hknown
    cases hknown
    exact ⟨n, h.running n hrun, hself⟩

/-- What is known stays known, and flights that have failed stay so. -/
structure Grows (d d' : Discovery) : Prop where
  types : ∀ types, d.types = some types → d'.types = some types
  length_le : d.flights.length ≤ d'.flights.length
  failed : ∀ (n : Nat) f, d.flights[n]? = some (.failed f) → d'.flights[n]? = some (.failed f)

theorem Grows.refl (d : Discovery) : d.Grows d := ⟨fun _ h => h, Nat.le_refl _, fun _ _ h => h⟩

theorem Grows.trans {d' d'' : Discovery} (h : d.Grows d') (h' : d'.Grows d'') : d.Grows d'' :=
  ⟨fun types htypes => h'.types types (h.types types htypes), Nat.le_trans h.length_le h'.length_le,
    fun n f hfailed => h'.failed n f (h.failed n f hfailed)⟩

theorem grows_launch (htypes : d.types = none) : d.Grows d.launch.1 := by
  refine ⟨fun types hknown => absurd (htypes.symm.trans hknown) nofun, ?_, fun n f hfailed => ?_⟩
  · simp [launch]
  · have hlt := (List.getElem?_eq_some_iff.mp hfailed).1
    rwa [getElem?_launch, if_neg (Nat.ne_of_lt hlt)]

theorem Sound.grows_received (h : d.Sound) {reply : Except Failure Json} {d' : Discovery}
    {next : Option Text} (hreceived : d.Received n reply d' next) : d.Grows d' := by
  refine ⟨fun types htypes => ?_, Nat.le_of_eq hreceived.length_eq.symm, fun m f hfailed => ?_⟩
  · rw [(hreceived.of_not_running (h.not_running htypes)).1]
    exact htypes
  · by_cases hm : n = m
    · subst hm
      rw [(hreceived.of_not_running (not_isRunning_of_eq hfailed rfl)).1]
      exact hfailed
    · rwa [hreceived.getElem?_ne hm]

theorem Sound.received (h : d.Sound) {reply : Except Failure Json} {d' : Discovery}
    {next : Option Text} (hreceived : d.Received n reply d' next) : d'.Sound := by
  cases hreceived with
  | ignored => exact h
  | failed f hrun => exact h.set hrun nofun
  | listed response names hflight => exact h.set (isRunning_of_eq hflight rfl) nofun
  | empty response hflight => exact h.land (isRunning_of_eq hflight rfl) []
  | detailed response names types hflight => exact h.land (isRunning_of_eq hflight rfl) types

end

end Discovery

end FieldSearch
