import FieldSearch.Proofs.Repository.Outcomes
import FieldSearch.Proofs.Repository.Requests
import FieldSearch.Proofs.Session.Discovery
import FieldSearch.Proofs.Transport.Bodies

/-!
# Descriptors that cannot be used

A client keeps the first descriptor that it is given, and only then looks for the master ref in it.
A descriptor that names none is therefore at fault in all queries from then on: each of them ends
with this fault in its next turn, and nothing is sent any more.
-/

namespace FieldSearch.Repository

open Transport

/-! ## The fault of a descriptor -/

/-- The refs can be looked through, and the first one that is marked as the master ref has this
reference. -/
def NamesMaster (descriptor : Entries Json) (reference : Json) : Prop :=
  RefsFit descriptor ∧ reference.isTruthy = true ∧ ∃ before ref after,
    Entries.get? "refs" descriptor = some (.array (before ++ ref :: after)) ∧
    (∀ other ∈ before, ¬ IsMarked other) ∧ IsMarked ref ∧ ref.member? "ref" = some reference

theorem masterRef?_of_marked {before after : List Json} {ref : Json} {found : Option Json}
    (hbefore : ∀ other ∈ before, ¬ IsMarked other) (hmarked : IsMarked ref)
    (h : Client.masterRef? (before ++ ref :: after) = .ok found) : found = some ref := by
  induction before with
  | nil =>
    obtain ⟨mark, hmember, htruthy⟩ := hmarked
    cases ref with
    | object members =>
      have hmark : ((Entries.get? "isMasterRef" members).getD .null).isTruthy = true := by
        rw [show Entries.get? "isMasterRef" members = some mark from hmember]
        exact htruthy
      simp only [List.nil_append, Client.masterRef?, Json.lookup, bind, Except.bind, hmark,
        if_true, pure, Except.pure] at h
      exact (Except.ok.inj h).symm
    | _ => cases hmember
  | cons other before ih =>
    rw [List.forall_mem_cons] at hbefore
    apply ih hbefore.2
    rw [List.cons_append, Client.masterRef?] at h
    cases other with
    | object members =>
      have hmark := mt isMarked_object.mpr hbefore.1
      simp only [Json.lookup, bind, Except.bind] at h
      rwa [if_neg hmark] at h
    | _ => cases h

theorem masterReference_eq_some_iff {descriptor : Entries Json} {reference : Json} :
    Client.masterReference descriptor = .ok (some reference) ↔
      NamesMaster descriptor reference := by
  constructor
  · intro h
    exact ⟨masterReference_isOk.mp ⟨_, h⟩, masterReference_eq_some h⟩
  · rintro ⟨hfit, htruthy, before, ref, after, hrefs, hbefore, hmarked, hmember⟩
    obtain ⟨items, hitems, hareRefs⟩ := refs_isOk.mpr hfit
    have hlisted : items = before ++ ref :: after := by
      have htruthy : (Json.array (before ++ ref :: after)).isTruthy = true := by
        simp [Json.isTruthy]
      simp only [Client.refs, hrefs, Option.getD_some, htruthy, if_true] at hitems
      exact (Except.ok.inj hitems).symm
    obtain ⟨found, hfound⟩ := masterRef?_isOk.mpr hareRefs
    rw [hlisted] at hitems hfound
    obtain rfl := masterRef?_of_marked hbefore hmarked hfound
    cases ref with
    | object members =>
      have hget : (Entries.get? "ref" members).getD .null = reference := by
        rw [show Entries.get? "ref" members = some reference from hmember, Option.getD_some]
      simp only [Client.masterReference, bind, Except.bind, pure, Except.pure, hitems, hfound,
        Json.lookup, hget, htruthy, if_true]
    | _ => cases hmember

namespace Client

variable {α : Type} {c : Client α} {descriptor : Entries Json} {fault : Fault α}

/-- Why no request can be made from a descriptor. -/
def fault? (descriptor : Entries Json) : Option (Fault α) :=
  match masterReference descriptor with
  | .error f => some (.shape f)
  | .ok none => some .noMasterRef
  | .ok (some _) => none

theorem fault?_eq_none_iff :
    (fault? descriptor : Option (Fault α)) = none ↔
      ∃ reference, NamesMaster descriptor reference := by
  simp only [← masterReference_eq_some_iff]
  unfold fault?
  split <;> simp [*]

theorem fault?_of_refsFit (hfit : RefsFit descriptor)
    (h : ¬ ∃ reference, NamesMaster descriptor reference) :
    (fault? descriptor : Option (Fault α)) = some .noMasterRef := by
  simp only [← masterReference_eq_some_iff] at h
  obtain ⟨found, hfound⟩ := masterReference_isOk.mpr hfit
  cases found with
  | none => rw [fault?, hfound]
  | some reference => exact absurd ⟨reference, hfound⟩ h

theorem fault?_of_not_refsFit (h : ¬ RefsFit descriptor) :
    ∃ f, (fault? descriptor : Option (Fault α)) = some (.shape f) := by
  rw [← masterReference_isOk] at h
  unfold fault?
  cases hfound : masterReference descriptor with
  | error f => exact ⟨f, rfl⟩
  | ok found => exact absurd ⟨found, hfound⟩ h

theorem requestHeaders_eq_error :
    c.requestHeaders descriptor = .error fault ↔ fault? descriptor = some fault := by
  unfold requestHeaders fault?
  split <;> simp [*]

/-- How a call ends with a descriptor that is at fault; only the descriptor itself can be had. -/
def barred (descriptor : Entries Json) (fault : Fault α) : Purpose → Result α
  | .descriptor => .ok (.object descriptor)
  | .headers | .query _ => .error fault

end Client

/-! ## What the end of a query tells -/

/-- A query that has ended well had a descriptor with a master ref, and one that found none had a
descriptor without. -/
def Stage.Tells {α : Type} (known : Option (Entries Json)) : Stage α → Prop
  | .finished (.ok _) => ∃ descriptor reference, known = some descriptor ∧
      Client.masterReference descriptor = .ok (some reference)
  | .finished (.error .noMasterRef) => ∃ descriptor, known = some descriptor ∧
      Client.masterReference descriptor = .ok none
  | _ => True

theorem Stage.Tells.mono {α : Type} {stage : Stage α} {known known' : Option (Entries Json)}
    (h : stage.Tells known) (hknown : known' = known ∨ known = none) : stage.Tells known' := by
  obtain rfl | rfl := hknown
  · exact h
  · unfold Stage.Tells at h ⊢
    split at h
    · obtain ⟨descriptor, reference, hnone, -⟩ := h
      cases hnone
    · obtain ⟨descriptor, hnone, -⟩ := h
      cases hnone
    · exact h

namespace Client

variable {α : Type} {c : Client α} {id : Nat} {descriptor : Entries Json} {reference : Json}
  {stage : Stage α}

theorem payloadData_ne (payload : Json) :
    (payloadData payload : Result α) ≠ .error .noMasterRef := by
  intro h
  cases payload with
  | object payload =>
    simp only [payloadData] at h
    split at h
    · cases h
      exact isCrash_of_errorMessages ‹_›
    · split at h
      · cases h
      · split at h <;> cases h
  | _ => cases h

theorem settleQuery_tells (call : Channel.Call) (p : Progress α)
    (h : masterReference descriptor = .ok (some reference)) :
    (settleQuery call p).Tells (some descriptor) := by
  cases p with
  | finished outcome =>
    cases outcome with
    | error r => trivial
    | ok payload =>
      have hne := payloadData_ne (α := α) payload
      rw [settleQuery]
      generalize (payloadData payload : Result α) = result at hne
      cases result with
      | ok value => exact ⟨descriptor, reference, rfl, h⟩
      | error fault =>
        cases fault with
        | noMasterRef => exact absurd rfl hne
        | _ => trivial
  | _ => trivial

variable [Duration α]

theorem withDescriptor_tells (c : Client α) (now : α) (descriptor : Entries Json)
    (document : Text) :
    (c.withDescriptor now descriptor (.query document)).2.Tells (some descriptor) := by
  unfold withDescriptor
  cases hheaders : c.requestHeaders descriptor with
  | error fault =>
    cases fault with
    | noMasterRef =>
      refine ⟨descriptor, rfl, ?_⟩
      have hfault := requestHeaders_eq_error.mp hheaders
      unfold fault? at hfault
      split at hfault
      · cases hfault
      · assumption
      · cases hfault
    | _ => trivial
  | ok headers =>
    obtain ⟨reference, hreference, -⟩ := requestHeaders_eq_ok hheaders
    exact settleQuery_tells _ _ hreference

theorem fetch_tells (c : Client α) (now : α) (document : Text) (reply : Option (Reply α))
    (p : Progress α) :
    let r := c.fetch now (.query document) reply p
    r.2.1.Tells r.1.descriptor := by
  unfold fetch
  generalize c.channel.advance now c.descriptorCall reply p = moved
  obtain ⟨channel, p'⟩ := moved
  cases p' with
  | finished outcome =>
    cases outcome with
    | error r => trivial
    | ok value =>
      cases value with
      | object descriptor =>
        obtain ⟨holder, line, woken, hrelease⟩ :=
          release_eq { c with channel, descriptor := some descriptor }
        obtain ⟨channel', stage', hwith, -⟩ := withDescriptor_spec
          (c := { c with channel, descriptor := some descriptor, holder, line }) rfl now
          (.query document) 0
        have htells := withDescriptor_tells
          { c with channel, descriptor := some descriptor, holder, line } now descriptor document
        rw [hwith] at htells
        dsimp only
        rw [settleFetch, hrelease]
        dsimp only
        rw [hwith]
        exact htells
      | _ => trivial
  | _ => trivial

theorem turn_tells {document : Text} (hlets : c.lets id stage = true)
    (hsupports : c.Supports id (.query document) stage) (now : α) (reply : Reply α) :
    let r := c.turn (.query document) id now (some reply) stage
    r.2.1.Tells r.1.descriptor := by
  cases stage with
  | starting =>
    cases hdescriptor : c.descriptor with
    | some descriptor =>
      have htells := withDescriptor_tells c now descriptor document
      obtain ⟨channel, stage', hwith, -⟩ :=
        withDescriptor_spec hdescriptor now (.query document) id
      rw [hwith] at htells
      rw [turn_starting_known hdescriptor, hwith]
      exact htells.mono (.inl hdescriptor)
    | none =>
      cases hholder : c.holder with
      | some other =>
        rw [turn_starting_behind hdescriptor hholder]
        trivial
      | none =>
        rw [turn_starting_alone hdescriptor hholder]
        exact fetch_tells _ now document _ _
  | queued =>
    cases hdescriptor : c.descriptor with
    | some descriptor =>
      obtain ⟨holder, line, woken, hrelease⟩ := release_eq c
      have htells := withDescriptor_tells { c with holder, line } now descriptor document
      obtain ⟨channel, stage', hwith, -⟩ := withDescriptor_spec (c := { c with holder, line })
        hdescriptor now (.query document) id
      rw [hwith] at htells
      rw [turn_queued_known hdescriptor hrelease, hwith]
      exact htells.mono (.inl hdescriptor)
    | none =>
      rw [turn_queued_unknown hdescriptor]
      exact fetch_tells c now document _ _
  | fetching p => exact fetch_tells c now document _ p
  | querying call p =>
    obtain ⟨-, descriptor, headers, document', hdescriptor, -, hheaders, -⟩ := hsupports
    obtain ⟨reference, hreference, -⟩ := requestHeaders_eq_ok hheaders
    exact (settleQuery_tells call _ hreference).mono (.inl hdescriptor)
  | finished result => cases hlets

/-! ## With a descriptor at fault -/

theorem withDescriptor_barred {fault : Fault α} (h : fault? descriptor = some fault) (c : Client α)
    (now : α) (purpose : Purpose) :
    c.withDescriptor now descriptor purpose =
      (c, .finished (barred descriptor fault purpose)) := by
  have hheaders : c.requestHeaders descriptor = .error fault := requestHeaders_eq_error.mpr h
  cases purpose with
  | descriptor => rfl
  | headers | query => simp only [withDescriptor, hheaders, barred, Except.map]

/-- The call that fetches such a descriptor ends with it at once. -/
theorem turn_brought {fault : Fault α} (h : fault? descriptor = some fault)
    {a : Transport.Answer α} (hsuccess : a.isSuccess = true)
    (hbody : a.read true = .ok (.object descriptor)) (c : Client α) (purpose : Purpose)
    (id : Nat) (now : α) (asked : Wire) (attempt : Nat) :
    ∃ c' woken,
      c.turn purpose id now (some (.answered a)) (.fetching (.awaiting asked attempt)) =
        (c', .finished (barred descriptor fault purpose), woken) ∧
      c'.descriptor = some descriptor := by
  have hadvance : (c.channel.advance now c.descriptorCall (some (.answered a))
      (.awaiting asked attempt)).2 = .finished (.ok (.object descriptor)) :=
    (Channel.advance_eq_ok c.channel now c.descriptorCall (.answered a) rfl).mpr
      ⟨asked, attempt, a, rfl, rfl, hsuccess, hbody⟩
  rw [turn, fetch]
  generalize c.channel.advance now c.descriptorCall (some (.answered a))
    (.awaiting asked attempt) = moved at hadvance
  obtain ⟨channel, p⟩ := moved
  obtain rfl : p = _ := hadvance
  obtain ⟨holder, line, woken, hrelease⟩ :=
    release_eq { c with channel, descriptor := some descriptor }
  refine ⟨{ c with channel, descriptor := some descriptor, holder, line }, woken, ?_, rfl⟩
  dsimp only
  rw [settleFetch, hrelease]
  dsimp only
  rw [withDescriptor_barred h]

/-- A call that has a turn has not sent anything yet, and ends in this turn. -/
theorem turn_barred {purpose : Purpose} {fault : Fault α} (h : fault? descriptor = some fault)
    (hdescriptor : c.descriptor = some descriptor) (hlets : c.lets id stage = true)
    (hsupports : c.Supports id purpose stage) (now : α) (reply : Reply α) :
    stage.brought? reply = none ∧ ∃ c' woken,
      c.turn purpose id now (some reply) stage =
        (c', .finished (barred descriptor fault purpose), woken) ∧
      c'.descriptor = some descriptor := by
  cases stage with
  | starting =>
    refine ⟨rfl, c, none, ?_, hdescriptor⟩
    rw [turn_starting_known hdescriptor, withDescriptor_barred h]
  | queued =>
    obtain ⟨holder, line, woken, hrelease⟩ := release_eq c
    refine ⟨rfl, { c with holder, line }, woken, ?_, hdescriptor⟩
    rw [turn_queued_known hdescriptor hrelease, withDescriptor_barred h]
  | fetching p => cases hdescriptor.symm.trans hsupports.2.2
  | querying call p =>
    obtain ⟨-, descriptor', headers, document, hdescriptor', -, hheaders, -⟩ := hsupports
    cases hdescriptor.symm.trans hdescriptor'
    cases hheaders.symm.trans (requestHeaders_eq_error.mpr h)
  | finished result => cases hlets

end Client

namespace Traffic

variable {α : Type} {t : Traffic α} {descriptor : Entries Json} {fault : Fault α}

def Telling (t : Traffic α) : Prop :=
  ∀ (id : Nat) document stage, t.calls[id]? = some (.query document, stage) →
    stage.Tells t.client.descriptor

theorem telling_ofPurposes (client : Client α) (purposes : List Purpose) :
    (ofPurposes client purposes).Telling := by
  intro id document stage hcall
  obtain ⟨purpose, -, hstart⟩ := List.mem_map.mp (List.mem_of_getElem? hcall)
  cases hstart
  trivial

variable [Duration α]

theorem Orderly.step_telling (h : Orderly t) (htelling : t.Telling) (turn : Turn α) :
    (t.step turn).Telling := by
  cases hcan : t.canTurn turn.id with
  | false => rwa [step_of_not_canTurn hcan]
  | true =>
    obtain ⟨call, hcall, hlets⟩ := canTurn_iff.mp hcan
    have hturned := h.turned hcall hlets
    intro j document stage hstage
    rw [step_of_lets hcall hlets] at hstage ⊢
    by_cases hj : turn.id = j
    · rw [← hj, List.getElem?_set_self (List.getElem?_eq_some_iff.mp hcall).1] at hstage
      obtain ⟨purpose, stage₀⟩ := call
      cases hstage
      exact Client.turn_tells hlets (h.supports _ _ hcall) turn.now turn.reply
    · rw [List.getElem?_set_ne hj] at hstage
      exact (htelling j document stage hstage).mono (hturned.descriptor.imp_right And.left)

theorem Orderly.run_telling (h : Orderly t) (htelling : t.Telling) (turns : List (Turn α)) :
    (t.run turns).Telling := by
  induction turns generalizing t with
  | nil => exact htelling
  | cons turn turns ih => exact ih (h.step turn) (h.step_telling htelling turn)

theorem Orderly.step_barred (h : Orderly t) (hfault : Client.fault? descriptor = some fault)
    (hdescriptor : t.client.descriptor = some descriptor) {turn : Turn α}
    {call : Purpose × Stage α} (hcall : t.calls[turn.id]? = some call)
    (hlets : t.client.lets turn.id call.2 = true) :
    (t.step turn).client.descriptor = some descriptor ∧ t.eventsOf turn = [] ∧
      (t.step turn).calls = t.calls.set turn.id
        (call.1, .finished (Client.barred descriptor fault call.1)) := by
  obtain ⟨hbrought, c', woken, hturn, hkept⟩ :=
    Client.turn_barred hfault hdescriptor hlets (h.supports _ _ hcall) turn.now turn.reply
  rw [step_of_lets hcall hlets, eventsOf_of_lets hcall hlets, hturn, hbrought]
  exact ⟨hkept, rfl, rfl⟩

theorem Orderly.run_barred (h : Orderly t) (hfault : Client.fault? descriptor = some fault)
    (hdescriptor : t.client.descriptor = some descriptor) (turns : List (Turn α)) :
    (t.run turns).client.descriptor = some descriptor ∧ t.events turns = [] ∧
      ∀ (id : Nat) purpose stage, (t.run turns).calls[id]? = some (purpose, stage) →
        t.calls[id]? = some (purpose, stage) ∨
          stage = .finished (Client.barred descriptor fault purpose) := by
  induction turns generalizing t with
  | nil => exact ⟨hdescriptor, rfl, fun _ _ _ hstage => .inl hstage⟩
  | cons turn turns ih =>
    have hrun : t.run (turn :: turns) = (t.step turn).run turns := rfl
    have hevents : t.events (turn :: turns) = t.eventsOf turn ++ (t.step turn).events turns := rfl
    rw [hrun, hevents]
    cases hcan : t.canTurn turn.id with
    | false =>
      rw [eventsOf_of_not_canTurn hcan, step_of_not_canTurn hcan]
      exact ih h hdescriptor
    | true =>
      obtain ⟨call, hcall, hlets⟩ := canTurn_iff.mp hcan
      obtain ⟨hkept, hnone, hcalls⟩ := h.step_barred hfault hdescriptor hcall hlets
      obtain ⟨hkept', hnone', hcalls'⟩ := ih (h.step turn) hkept
      refine ⟨hkept', by rw [hnone, hnone']; rfl, ?_⟩
      intro id purpose stage hstage
      obtain hstage | hbarred := hcalls' id purpose stage hstage
      · rw [hcalls] at hstage
        by_cases hid : turn.id = id
        · rw [← hid, List.getElem?_set_self (List.getElem?_eq_some_iff.mp hcall).1] at hstage
          cases hstage
          exact .inr rfl
        · rw [List.getElem?_set_ne hid] at hstage
          exact .inl hstage
      · exact .inr hbarred

/-- **A descriptor that cannot be used is kept.** Let the calls of an idle client take turns in any
order, at any times and with any replies. A query that finds no master ref has a descriptor that
names none, and the client holds on to it. Once it holds such a descriptor, however that came to be,
it keeps it in all further turns and sends nothing; each call that has a turn ends in it, and a
query then with the fault of this descriptor, which is the missing master ref if its refs can be
looked through; no query ever succeeds; and a session that has its replies from this client never
learns the document types, however often it tries again. -/
theorem unusable_descriptor_kept {client : Client Float} (hholder : client.holder = none)
    (hline : client.line = []) (purposes : List Purpose) (turns : List (Turn Float)) :
    let t := (ofPurposes client purposes).run turns
    (∀ (id : Nat) document,
      t.calls[id]? = some (.query document, .finished (.error .noMasterRef)) →
      ∃ descriptor, t.client.descriptor = some descriptor ∧ RefsFit descriptor ∧
        ¬ ∃ reference, NamesMaster descriptor reference) ∧
    ∀ descriptor, t.client.descriptor = some descriptor →
      (¬ ∃ reference, NamesMaster descriptor reference) →
      ∃ fault : Fault Float, (RefsFit descriptor → fault = .noMasterRef) ∧
        (¬ RefsFit descriptor → fault.IsCrash) ∧
        (∀ (id : Nat) purpose stage, t.calls[id]? = some (purpose, stage) →
          t.client.lets id stage = true → ∀ now reply, (t.step ⟨id, now, reply⟩).calls[id]? =
            some (purpose, .finished (Client.barred descriptor fault purpose))) ∧
        ∀ turns', let t' := t.run turns'
          t'.client.descriptor = some descriptor ∧ t.events turns' = [] ∧
          (∀ (id : Nat) purpose stage, t'.calls[id]? = some (purpose, stage) →
            t.calls[id]? = some (purpose, stage) ∨
              stage = .finished (Client.barred descriptor fault purpose)) ∧
          (∀ (id : Nat) document value,
            t'.calls[id]? ≠ some (.query document, .finished (.ok value))) ∧
          ∀ (pageSize : GraphQL.Value) events,
            (∀ sender reply, FieldSearch.Event.answer sender reply ∈ events →
              ∃ (id : Nat) (document : Text) (result : Result Float),
                t'.calls[id]? = some (.query document, .finished result) ∧
                reply = (Purpose.query document).outcome result) →
            (Session.run { pageSize } events).discovery.types = none := by
  intro t
  have horderly : Orderly t := (orderly_ofPurposes hholder hline purposes).run turns
  have htelling : t.Telling :=
    (orderly_ofPurposes hholder hline purposes).run_telling (telling_ofPurposes client purposes)
      turns
  refine ⟨?_, ?_⟩
  · intro id document hended
    obtain ⟨descriptor, hdescriptor, hreference⟩ := htelling id document _ hended
    refine ⟨descriptor, hdescriptor, masterReference_isOk.mp ⟨_, hreference⟩, ?_⟩
    rintro ⟨reference, hnames⟩
    cases hreference.symm.trans (masterReference_eq_some_iff.mpr hnames)
  · intro descriptor hdescriptor hunusable
    obtain ⟨fault, hfault⟩ : ∃ fault : Fault Float, Client.fault? descriptor = some fault :=
      Option.ne_none_iff_exists'.mp (mt Client.fault?_eq_none_iff.mp hunusable)
    refine ⟨fault, ?_, ?_, ?_, ?_⟩
    · intro hfit
      exact Option.some.inj (hfault.symm.trans (Client.fault?_of_refsFit hfit hunusable))
    · intro hfit
      obtain ⟨f, hshape⟩ := Client.fault?_of_not_refsFit (α := Float) hfit
      cases hfault.symm.trans hshape
      trivial
    · intro id purpose stage hcall hlets now reply
      let turn : Turn Float := ⟨id, now, reply⟩
      have hcall' : t.calls[turn.id]? = some (purpose, stage) := hcall
      obtain ⟨-, -, hcalls⟩ := horderly.step_barred hfault hdescriptor hcall' hlets
      rw [hcalls]
      exact List.getElem?_set_self (List.getElem?_eq_some_iff.mp hcall).1
    · intro turns' t'
      obtain ⟨hkept, hevents, hcalls⟩ := horderly.run_barred hfault hdescriptor turns'
      have hfailed : ∀ (id : Nat) document value,
          t'.calls[id]? ≠ some (.query document, .finished (.ok value)) := by
        intro id document value hended
        obtain ⟨descriptor', reference, hdescriptor', hreference⟩ :=
          horderly.run_telling htelling turns' id document _ hended
        cases hkept.symm.trans hdescriptor'
        exact hunusable ⟨reference, masterReference_eq_some_iff.mp hreference⟩
      refine ⟨hkept, hevents, hcalls, hfailed, ?_⟩
      intro pageSize events hreplies
      apply Session.types_eq_none
      intro sender response hmem
      obtain ⟨id, document, result, hended, hreply⟩ := hreplies sender _ hmem
      cases result with
      | ok value => exact hfailed id document value hended
      | error f => cases hreply

/-! ## A bare descriptor -/

/-- An answer that is an object, but has no refs. -/
def bare : Transport.Answer Float :=
  { status := 200, reason := "OK", retryAfter := none, body := Text.encodeUtf8 "\x7b\x7d"
    text := "\x7b\x7d" }

theorem read_bare : bare.read true = .ok (.object []) := by
  have hplain : ¬ Text.LooksWide (Text.encodeUtf8 "\x7b\x7d") := by
    unfold Text.LooksWide
    decide
  rw [Answer.read_json, jsonBody, bare, Text.decodeJson?_encodeUtf8 hplain]
  rfl

theorem not_namesMaster_nil : ¬ ∃ reference, NamesMaster [] reference := by
  rintro ⟨reference, -, -, before, ref, after, hrefs, -⟩
  cases hrefs

/-- Two queries, the first of which is answered with a bare descriptor. -/
def misled : Traffic Float :=
  (ofPurposes newcomer [.query "query types", .query "query types"]).run
    (.replicate 2 ⟨0, 1000, .answered bare⟩)

theorem misled_ends : misled.client.descriptor = some [] ∧
    misled.calls = [(.query "query types", .finished (.error .noMasterRef)),
      (.query "query types", .starting)] := by
  have hfirst : (ofPurposes newcomer [.query "query types", .query "query types"]).step
      ⟨0, 1000, .answered bare⟩ =
        ⟨{ newcomer with
            channel := { newcomer.channel with lastRequest := 1000 }, holder := some 0 },
          [(.query "query types",
            .fetching (.awaiting (descriptorRequest newcomer.endpoints none) 0)),
          (.query "query types", .starting)]⟩ := rfl
  obtain ⟨c', woken, hturn, hkept⟩ := Client.turn_brought (rfl : Client.fault? [] = some _)
    (a := bare) rfl read_bare
    { newcomer with channel := { newcomer.channel with lastRequest := 1000 }, holder := some 0 }
    (.query "query types") 0 1000 (descriptorRequest newcomer.endpoints none) 0
  have hmisled : misled = step (step (ofPurposes newcomer
      [.query "query types", .query "query types"]) ⟨0, 1000, .answered bare⟩)
      ⟨0, 1000, .answered bare⟩ := rfl
  rw [hmisled, hfirst, step_of_lets rfl rfl]
  dsimp only
  rw [hturn]
  exact ⟨hkept, rfl⟩

theorem unusable_descriptor_kept_bare :
    newcomer.holder = none ∧ newcomer.line = [] ∧
      misled.calls[0]? = some (.query "query types", .finished (.error .noMasterRef)) ∧
      misled.client.descriptor = some [] ∧ (¬ ∃ reference, NamesMaster [] reference) ∧
      ∀ now reply, misled.events [⟨1, now, reply⟩] = [] ∧
        (misled.step ⟨1, now, reply⟩).calls[1]? =
          some (.query "query types", .finished (.error .noMasterRef)) := by
  obtain ⟨hdescriptor, hcalls⟩ := misled_ends
  obtain ⟨fault, hmissing, -, hends, hkept⟩ := (unusable_descriptor_kept
    (rfl : newcomer.holder = none) rfl [.query "query types", .query "query types"]
    (.replicate 2 ⟨0, 1000, .answered bare⟩)).2 [] hdescriptor not_namesMaster_nil
  obtain rfl := hmissing nofun
  refine ⟨rfl, rfl, ?_, hdescriptor, not_namesMaster_nil, ?_⟩
  · rw [hcalls]
    rfl
  · intro now reply
    refine ⟨(hkept [⟨1, now, reply⟩]).2.1, ?_⟩
    refine hends 1 (.query "query types") .starting ?_ rfl now reply
    show misled.calls[1]? = _
    rw [hcalls]
    rfl

/-- A descriptor without refs is kept, although it has made a query fail. -/
theorem unusable_descriptor_not_dropped :
    ¬ ∀ (purposes : List Purpose) (turns : List (Turn Float)) (id : Nat) (document : Text),
      let t := (ofPurposes newcomer purposes).run turns
      t.calls[id]? = some (.query document, .finished (.error .noMasterRef)) →
        t.client.descriptor = none := by
  intro h
  obtain ⟨hdescriptor, hcalls⟩ := misled_ends
  have hnone := h [.query "query types", .query "query types"]
    (.replicate 2 ⟨0, 1000, .answered bare⟩) 0 "query types" (congrArg (·[0]?) hcalls)
  cases hdescriptor.symm.trans hnone

end Traffic

end FieldSearch.Repository
