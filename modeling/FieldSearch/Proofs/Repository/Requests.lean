import FieldSearch.Proofs.Repository.Carried
import FieldSearch.Proofs.Repository.Traffic

/-!
# Requests of a client

What a client sends while its calls take turns: requests for the descriptor until one of them is
answered with it, and from then on requests of queries only, all made from that descriptor. One turn
adds to this record, and records of two runs, one after the other, are a record of both.
-/

namespace FieldSearch.Repository

open Transport

/-- What can be seen of a client: it sends a request for the descriptor, it gets the descriptor, or
a call sends the request of its query. -/
inductive Event where
  | asked (w : Wire)
  | fetched (descriptor : Entries Json)
  | queried (request : Nat × Wire)

namespace Stage

variable {α : Type}

/-- What the call of a given number has sent at the end of its turn. -/
def sent? (id : Nat) (stage : Stage α) : Option Event :=
  match stage, stage.move with
  | .fetching _, .send w => some (.asked w)
  | .querying .., .send w => some (.queried (id, w))
  | _, _ => none

/-- The descriptor that a reply brings to a call: the object in a success that answers a request
for it. -/
def brought? (reply : Reply α) : Stage α → Option (Entries Json)
  | .fetching (.awaiting ..) =>
    match reply with
    | .answered a =>
      match a.isSuccess, a.read true with
      | true, .ok (.object descriptor) => some descriptor
      | _, _ => none
    | .failed _ => none
  | _ => none

def isFetching : Stage α → Bool
  | fetching _ => true
  | starting | queued | querying .. | finished _ => false

/-- A request that was sent is the one for the descriptor, or the one of the query. -/
def Written (endpoints : Endpoints) (token : Option Text) : Stage α → Prop
  | .fetching (.awaiting w _) => w = descriptorRequest endpoints token
  | .querying call (.awaiting w _) => call.wire = .ok w
  | _ => True

variable {reply : Reply α} {p : Progress α} {descriptor : Entries Json}

theorem brought?_eq_some : (fetching p).brought? reply = some descriptor ↔
    ∃ wire attempt a, p = .awaiting wire attempt ∧ reply = .answered a ∧ a.isSuccess = true ∧
      a.read true = .ok (.object descriptor) := by
  cases p with
  | awaiting wire attempt =>
    cases reply with
    | failed message => simp [brought?]
    | answered a =>
      cases hsuccess : a.isSuccess with
      | false => simp [brought?, hsuccess]
      | true =>
        cases hbody : a.read true with
        | error fault => simp [brought?, hsuccess, hbody]
        | ok value => cases value <;> simp [brought?, hsuccess, hbody]
  | _ => simp [brought?]

end Stage

/-! ## One turn of a call -/

namespace Client

variable {α : Type} {c : Client α} {id : Nat} {purpose : Purpose} {stage : Stage α}
  {reply : Reply α}

/-- What a turn adds to what is known and sent: the descriptor that its reply brings, and the
request of its call. -/
structure Recorded (c : Client α) (reply : Reply α) (stage : Stage α)
    (r : Client α × Stage α × Option Nat) : Prop where
  descriptor : r.1.descriptor = (stage.brought? reply).or c.descriptor
  written : r.2.1.Written c.endpoints c.token

theorem settleQuery_written {call : Channel.Call} {p : Progress α}
    (h : ∀ w n, p = .awaiting w n → call.wire = .ok w) (endpoints : Endpoints)
    (token : Option Text) : (settleQuery call p).Written endpoints token := by
  cases p with
  | awaiting w n => exact h w n rfl
  | finished outcome => cases outcome <;> trivial
  | _ => trivial

variable [Duration α]

theorem withDescriptor_written (c : Client α) (now : α) (descriptor : Entries Json)
    (purpose : Purpose) (endpoints : Endpoints) (token : Option Text) :
    (c.withDescriptor now descriptor purpose).2.Written endpoints token := by
  cases purpose with
  | descriptor | headers => trivial
  | query document =>
    unfold withDescriptor
    cases c.requestHeaders descriptor with
    | error fault => trivial
    | ok headers =>
      -- a call that starts takes no reply, so any reply will do
      exact settleQuery_written (fun w n h =>
        Channel.wire_of_advance (.failed []) (p := .starting) rfl h) endpoints token

theorem fetch_recorded {p : Progress α} (hrun : p.hasEnded = false) (now : α) (purpose : Purpose)
    (reply : Reply α) :
    Recorded c reply (.fetching p) (c.fetch now purpose (some reply) p) := by
  have hwire : ∀ w n, (c.channel.advance now c.descriptorCall (some reply) p).2 = .awaiting w n →
      w = descriptorRequest c.endpoints c.token := fun _ _ h =>
    descriptorCall_eq_ok (Channel.wire_of_advance reply hrun h)
  have hbrought : ∀ descriptor, (Stage.fetching p).brought? reply = some descriptor ↔
      (c.channel.advance now c.descriptorCall (some reply) p).2 =
        .finished (.ok (.object descriptor)) := fun _ =>
    Stage.brought?_eq_some.trans
      (Channel.advance_eq_ok c.channel now c.descriptorCall reply hrun).symm
  unfold fetch
  generalize c.channel.advance now c.descriptorCall (some reply) p = moved at hwire hbrought
  obtain ⟨channel, p'⟩ := moved
  dsimp only at hwire hbrought ⊢
  -- without a descriptor the right to fetch is passed on, and nothing else changes
  have hfailed : ∀ fault : Fault α, (Stage.fetching p).brought? reply = none →
      Recorded c reply (.fetching p)
        (let released := ({ c with channel } : Client α).release
         (released.1, .finished (.error fault), released.2)) := by
    intro fault hnone
    obtain ⟨holder, line, woken, hrelease⟩ := release_eq { c with channel }
    rw [hrelease]
    exact ⟨by rw [hnone]; rfl, trivial⟩
  cases hfound : (Stage.fetching p).brought? reply with
  | some descriptor =>
    obtain rfl := (hbrought descriptor).mp hfound
    obtain ⟨holder, line, woken, hrelease⟩ :=
      release_eq { c with channel, descriptor := some descriptor }
    have hwritten := withDescriptor_written
      { c with channel, descriptor := some descriptor, holder, line } now descriptor purpose
      c.endpoints c.token
    obtain ⟨channel', stage', hwith, -⟩ := withDescriptor_spec
      (c := { c with channel, descriptor := some descriptor, holder, line }) rfl now purpose 0
    rw [hwith] at hwritten
    rw [settleFetch, hrelease]
    dsimp only
    rw [hwith]
    exact ⟨by rw [hfound]; rfl, hwritten⟩
  | none =>
    cases p' with
    | finished outcome =>
      cases outcome with
      | error r => exact hfailed (.refused r) hfound
      | ok value =>
        cases value with
        | object descriptor => cases hfound.symm.trans ((hbrought descriptor).mpr rfl)
        | _ => exact hfailed .badDescriptor hfound
    | starting | sleeping => exact ⟨by rw [hfound]; rfl, trivial⟩
    | awaiting w n => exact ⟨by rw [hfound]; rfl, hwire w n rfl⟩

theorem turn_recorded (hlets : c.lets id stage = true) (hsupports : c.Supports id purpose stage)
    (now : α) (reply : Reply α) :
    Recorded c reply stage (c.turn purpose id now (some reply) stage) := by
  cases stage with
  | starting =>
    cases hdescriptor : c.descriptor with
    | some descriptor =>
      have hwritten := withDescriptor_written c now descriptor purpose c.endpoints c.token
      obtain ⟨channel, stage', hwith, -⟩ := withDescriptor_spec hdescriptor now purpose id
      rw [hwith] at hwritten
      rw [turn_starting_known hdescriptor, hwith]
      exact ⟨rfl, hwritten⟩
    | none =>
      cases hholder : c.holder with
      | some other =>
        rw [turn_starting_behind hdescriptor hholder]
        exact ⟨rfl, trivial⟩
      | none =>
        rw [turn_starting_alone hdescriptor hholder]
        obtain ⟨hd, hwritten⟩ := fetch_recorded (c := { c with holder := some id })
          (p := .starting) rfl now purpose reply
        exact ⟨hd, hwritten⟩
  | queued =>
    cases hdescriptor : c.descriptor with
    | some descriptor =>
      obtain ⟨holder, line, woken, hrelease⟩ := release_eq c
      have hwritten := withDescriptor_written { c with holder, line } now descriptor purpose
        c.endpoints c.token
      obtain ⟨channel, stage', hwith, -⟩ :=
        withDescriptor_spec (c := { c with holder, line }) hdescriptor now purpose id
      rw [hwith] at hwritten
      rw [turn_queued_known hdescriptor hrelease, hwith]
      exact ⟨rfl, hwritten⟩
    | none =>
      rw [turn_queued_unknown hdescriptor]
      obtain ⟨hd, hwritten⟩ := fetch_recorded (p := .starting) rfl now purpose reply
      exact ⟨hd, hwritten⟩
  | fetching p => exact fetch_recorded (Progress.hasEnded_of_isRunning hsupports.1) now purpose reply
  | querying call p =>
    exact ⟨rfl, settleQuery_written (fun w n h =>
      Channel.wire_of_advance reply (Progress.hasEnded_of_isRunning hsupports.1) h) c.endpoints c.token⟩
  | finished => cases hlets

end Client

/-! ## Records -/

/-- A request of the call with this number is that of its query, made from the descriptor. -/
def IsMadeFrom (endpoints : Endpoints) (token : Option Text) (purposes : List Purpose)
    (descriptor : Entries Json) (request : Nat × Wire) : Prop :=
  ∃ document, purposes[request.1]? = some (.query document) ∧
    Carries endpoints token descriptor document request.2

/-- What can be seen between two states of what is known: requests for the descriptor while it is
unknown, and requests made from it from then on. -/
inductive Trail (endpoints : Endpoints) (token : Option Text) (purposes : List Purpose) :
    Option (Entries Json) → Option (Entries Json) → List Event → Prop
  | unknown (n : Nat) :
      Trail endpoints token purposes none none
        (.replicate n (.asked (descriptorRequest endpoints token)))
  | fetched (n : Nat) {descriptor : Entries Json} (queries : List (Nat × Wire))
      (made : ∀ request ∈ queries, IsMadeFrom endpoints token purposes descriptor request) :
      Trail endpoints token purposes none (some descriptor)
        (.replicate n (.asked (descriptorRequest endpoints token)) ++
          .fetched descriptor :: queries.map .queried)
  | known {descriptor : Entries Json} (queries : List (Nat × Wire))
      (made : ∀ request ∈ queries, IsMadeFrom endpoints token purposes descriptor request) :
      Trail endpoints token purposes (some descriptor) (some descriptor) (queries.map .queried)

namespace Trail

variable {endpoints : Endpoints} {token : Option Text} {purposes : List Purpose}
  {before between after : Option (Entries Json)} {events events' : List Event}

theorem refl (known : Option (Entries Json)) : Trail endpoints token purposes known known [] := by
  cases known with
  | none => exact .unknown 0
  | some descriptor => exact .known [] (List.forall_mem_nil _)

theorem append (h : Trail endpoints token purposes before between events)
    (h' : Trail endpoints token purposes between after events') :
    Trail endpoints token purposes before after (events ++ events') := by
  cases h with
  | unknown n =>
    cases h' with
    | unknown m =>
      rw [List.replicate_append_replicate]
      exact .unknown (n + m)
    | fetched m queries hmade =>
      rw [← List.append_assoc, List.replicate_append_replicate]
      exact .fetched (n + m) queries hmade
  | fetched n queries hmade =>
    cases h' with
    | known queries' hmade' =>
      rw [List.append_assoc, List.cons_append, ← List.map_append]
      exact .fetched n (queries ++ queries') (List.forall_mem_append.mpr ⟨hmade, hmade'⟩)
  | known queries hmade =>
    cases h' with
    | known queries' hmade' =>
      rw [← List.map_append]
      exact .known (queries ++ queries') (List.forall_mem_append.mpr ⟨hmade, hmade'⟩)

variable {α : Type} {c : Client α} {id : Nat} {purpose : Purpose} {stage : Stage α}

/-- The request that a call has sent is one for the descriptor while it is unknown, or that of its
query. -/
theorem of_sent (hsupports : c.Supports id purpose stage)
    (hwritten : stage.Written c.endpoints c.token) (hpurpose : purposes[id]? = some purpose) :
    Trail c.endpoints c.token purposes c.descriptor c.descriptor (stage.sent? id).toList := by
  cases stage with
  | fetching p =>
    cases p with
    | awaiting w n =>
      obtain rfl : w = descriptorRequest c.endpoints c.token := hwritten
      rw [hsupports.2.2]
      exact .unknown 1
    | _ => exact refl _
  | querying call p =>
    cases p with
    | awaiting w n =>
      obtain ⟨-, descriptor, headers, document, hdescriptor, rfl, hheaders, rfl⟩ := hsupports
      rw [hdescriptor]
      exact .known [(id, w)] (List.forall_mem_singleton.mpr
        ⟨document, hpurpose, queryCall_carries hheaders hwritten⟩)
    | _ => exact refl _
  | _ => exact refl _

/-- A descriptor is brought only while none is known. -/
theorem of_brought {reply : Reply α} (hsupports : c.Supports id purpose stage) :
    Trail endpoints token purposes c.descriptor ((stage.brought? reply).or c.descriptor)
      ((stage.brought? reply).map Event.fetched).toList := by
  cases hbrought : stage.brought? reply with
  | none => exact refl _
  | some descriptor =>
    have hnone : c.descriptor = none := by
      cases stage with
      | fetching p => exact hsupports.2.2
      | _ => cases hbrought
    rw [hnone]
    exact .fetched 0 [] (List.forall_mem_nil _)

end Trail

/-! ## The record of a run -/

namespace Traffic

variable {α : Type} {t : Traffic α}

def IsFetching (t : Traffic α) (id : Nat) : Prop :=
  ∃ call, t.calls[id]? = some call ∧ call.2.isFetching = true

theorem Orderly.holder_of_fetching (h : Orderly t) {id : Nat} (hfetching : t.IsFetching id) :
    t.client.holder = some id ∧ t.client.descriptor = none := by
  obtain ⟨⟨purpose, stage⟩, hcall, hstage⟩ := hfetching
  have hsupports := h.supports id _ hcall
  cases stage with
  | fetching p => exact hsupports.2
  | _ => cases hstage

variable [Duration α]

/-- What can be seen of a turn: the descriptor that its reply brings, then the request it sends. -/
def eventsOf (t : Traffic α) (turn : Turn α) : List Event :=
  match t.calls[turn.id]?, (t.step turn).calls[turn.id]? with
  | some before, some after =>
    if t.client.lets turn.id before.2 then
      ((before.2.brought? turn.reply).map Event.fetched).toList ++ (after.2.sent? turn.id).toList
    else []
  | _, _ => []

def events (t : Traffic α) : List (Turn α) → List Event
  | [] => []
  | turn :: rest => t.eventsOf turn ++ events (t.step turn) rest

theorem eventsOf_of_lets {turn : Turn α} {call : Purpose × Stage α}
    (hcall : t.calls[turn.id]? = some call) (hlets : t.client.lets turn.id call.2 = true) :
    t.eventsOf turn =
      let r := t.client.turn call.1 turn.id turn.now (some turn.reply) call.2
      ((call.2.brought? turn.reply).map Event.fetched).toList ++ (r.2.1.sent? turn.id).toList := by
  have hafter : (t.step turn).calls[turn.id]? =
      some (call.1, (t.client.turn call.1 turn.id turn.now (some turn.reply) call.2).2.1) := by
    rw [step_of_lets hcall hlets]
    exact List.getElem?_set_self (List.getElem?_eq_some_iff.mp hcall).1
  simp only [eventsOf, hcall, hafter, hlets, if_true]

theorem eventsOf_of_not_canTurn {turn : Turn α} (h : t.canTurn turn.id = false) :
    t.eventsOf turn = [] := by
  rw [eventsOf, step_of_not_canTurn h]
  unfold canTurn at h
  cases hcall : t.calls[turn.id]? with
  | none => rfl
  | some call =>
    have hlets : t.client.lets turn.id call.2 = false := by simpa [hcall] using h
    simp [hlets]

/-- A turn leaves where the client is and how it shows itself. -/
theorem Orderly.same_step (h : Orderly t) (turn : Turn α) :
    (t.step turn).client.endpoints = t.client.endpoints ∧
      (t.step turn).client.token = t.client.token := by
  cases hcan : t.canTurn turn.id with
  | false =>
    rw [step_of_not_canTurn hcan]
    exact ⟨rfl, rfl⟩
  | true =>
    obtain ⟨call, hcall, hlets⟩ := canTurn_iff.mp hcan
    have hturned := h.turned hcall hlets
    rw [step_of_lets hcall hlets]
    exact ⟨hturned.endpoints, hturned.token⟩

theorem Orderly.trail_step (h : Orderly t) (turn : Turn α) :
    Trail t.client.endpoints t.client.token (t.calls.map Prod.fst) t.client.descriptor
      (t.step turn).client.descriptor (t.eventsOf turn) := by
  cases hcan : t.canTurn turn.id with
  | false =>
    rw [step_of_not_canTurn hcan, eventsOf_of_not_canTurn hcan]
    exact .refl _
  | true =>
    obtain ⟨call, hcall, hlets⟩ := canTurn_iff.mp hcan
    have hsupports := h.supports _ _ hcall
    have hturned := h.turned hcall hlets
    obtain ⟨hdescriptor, hwritten⟩ := Client.turn_recorded hlets hsupports turn.now turn.reply
    rw [step_of_lets hcall hlets, eventsOf_of_lets hcall hlets]
    generalize t.client.turn call.1 turn.id turn.now (some turn.reply) call.2 = r at *
    have hpurpose : (t.calls.map Prod.fst)[turn.id]? = some call.1 := by
      rw [List.getElem?_map, hcall]
      rfl
    rw [← hturned.endpoints, ← hturned.token] at hwritten ⊢
    refine Trail.append ?_ (Trail.of_sent hturned.supports hwritten hpurpose)
    rw [hdescriptor]
    exact Trail.of_brought hsupports

theorem Orderly.trail_run (h : Orderly t) (turns : List (Turn α)) :
    Trail t.client.endpoints t.client.token (t.calls.map Prod.fst) t.client.descriptor
      (t.run turns).client.descriptor (t.events turns) := by
  induction turns generalizing t with
  | nil => exact .refl _
  | cons turn turns ih =>
    have hrest := ih (h.step turn)
    rw [map_purpose_step, (h.same_step turn).1, (h.same_step turn).2] at hrest
    exact (h.trail_step turn).append hrest

/-- **Requests of a client.** Let the calls of a new client take turns in any order, at any times
and with any replies. No two of them fetch the descriptor at one time. The client sends requests for
the descriptor until it has one, whether that names a master ref or not; this one it keeps, and
never asks again. Requests of queries are sent only then, and each of them carries the first ref
that is marked as the master ref of this descriptor, its integration ref exactly if it has one, and
the token exactly if one is configured. -/
theorem requests_carry_descriptor (endpoints : Endpoints) (token : Option Text)
    (channel : Channel α) (accepts : Text → Bool) (purposes : List Purpose) (turns : List (Turn α)) :
    let t := ofPurposes { endpoints, token, channel, accepts } purposes
    let asked := Event.asked (descriptorRequest endpoints token)
    (∀ i j, (t.run turns).IsFetching i → (t.run turns).IsFetching j → i = j) ∧
    ((∃ n, (t.run turns).client.descriptor = none ∧ t.events turns = .replicate n asked) ∨
      ∃ (n : Nat) (descriptor : Entries Json) (queries : List (Nat × Wire)),
        (t.run turns).client.descriptor = some descriptor ∧
        (∀ i, ¬ (t.run turns).IsFetching i) ∧
        t.events turns = .replicate n asked ++ .fetched descriptor :: queries.map .queried ∧
        ∀ request ∈ queries, IsMadeFrom endpoints token purposes descriptor request) := by
  intro t asked
  have horderly : Orderly t := orderly_ofPurposes rfl rfl purposes
  have hrun := horderly.run turns
  have htrail := horderly.trail_run turns
  have hpurposes : t.calls.map Prod.fst = purposes := by
    simp [t, ofPurposes, Function.comp_def]
  rw [hpurposes] at htrail
  refine ⟨fun i j hi hj => ?_, ?_⟩
  · have hholder := (hrun.holder_of_fetching hi).1.symm.trans (hrun.holder_of_fetching hj).1
    exact Option.some.inj hholder
  · change Trail endpoints token purposes none _ _ at htrail
    generalize hknown : (t.run turns).client.descriptor = known at htrail ⊢
    generalize t.events turns = events at htrail
    cases htrail with
    | unknown n => exact .inl ⟨n, rfl, rfl⟩
    | fetched n queries hmade =>
      refine .inr ⟨n, _, queries, rfl, fun i hi => ?_, rfl, hmade⟩
      cases hknown.symm.trans (hrun.holder_of_fetching hi).2

/-! ## A query that is alone -/

/-- A request is neither held back nor rejected. -/
structure IsOpen (channel : Channel α) (now : α) : Prop where
  due : channel.wait? now = none
  closed : channel.breaker.state = .closed

theorem IsOpen.advance_starting {channel : Channel α} {now : α} (h : IsOpen channel now)
    {call : Channel.Call} {w : Wire} (hw : call.wire = .ok w) (reply : Option (Reply α)) :
    channel.advance now call reply .starting =
      ({ channel with lastRequest := now }, .awaiting w 0) := by
  rw [Channel.advance, Channel.begin, h.due, hw]
  exact Channel.send_of_closed h.closed now w 0

theorem IsOpen.withDescriptor_query {c : Client α} {now : α} (h : IsOpen c.channel now)
    {descriptor headers : Entries Json} {document : Text} {w : Wire}
    (hheaders : c.requestHeaders descriptor = .ok headers)
    (hw : (c.queryCall headers document).wire = .ok w) :
    (c.withDescriptor now descriptor (.query document)).2 =
      .querying (c.queryCall headers document) (.awaiting w 0) := by
  simp only [Client.withDescriptor, hheaders, h.advance_starting hw]
  rfl

/-- A reply that brings the descriptor lets a query go on with its own request. -/
theorem IsOpen.turn_fetching {c : Client α} {now : α} {a : Transport.Answer α}
    (h : IsOpen { c.channel with breaker := c.channel.breaker.succeed } now) (hline : c.line = [])
    (hsuccess : a.isSuccess = true) {descriptor headers : Entries Json}
    (hbody : a.read true = .ok (.object descriptor)) {document : Text} {w : Wire}
    (hheaders : c.requestHeaders descriptor = .ok headers)
    (hw : (c.queryCall headers document).wire = .ok w) (id : Nat) (asked : Wire) :
    (c.turn (.query document) id now (some (.answered a)) (.fetching (.awaiting asked 0))).2.1 =
      .querying (c.queryCall headers document) (.awaiting w 0) := by
  have hreceive : c.channel.receive now true 0 (.answered a) =
      ({ c.channel with breaker := c.channel.breaker.succeed },
        .finished (.ok (.object descriptor))) := by
    rw [Channel.receive_of_success hsuccess, Channel.bodyOutcome_eq_ok.mpr hbody]
  simp only [Client.turn, Client.fetch, Channel.advance, Client.descriptorCall, hreceive,
    Client.settleFetch, Client.release, hline]
  exact h.withDescriptor_query hheaders hw

theorem eventsOf_alone {c : Client α} {purpose : Purpose} {stage : Stage α}
    (hlets : c.lets 0 stage = true) (now : α) (reply : Reply α) :
    eventsOf ⟨c, [(purpose, stage)]⟩ ⟨0, now, reply⟩ =
      ((stage.brought? reply).map Event.fetched).toList ++
        ((c.turn purpose 0 now (some reply) stage).2.1.sent? 0).toList := by
  have hcall : [(purpose, stage)][(Turn.mk 0 now reply).id]? = some (purpose, stage) := rfl
  exact eventsOf_of_lets (t := ⟨c, [(purpose, stage)]⟩) hcall hlets

/-- A query that is alone asks for the descriptor; answered with one that names its refs, it sends
its own request in the same turn. -/
theorem events_alone {c : Client α} (hunknown : c.descriptor = none) (hholder : c.holder = none)
    (hline : c.line = []) (haddress : c.accepts c.descriptorUrl = true) {now later : α}
    (hopen : IsOpen c.channel now)
    (hlater :
      IsOpen { c.channel with lastRequest := now, breaker := c.channel.breaker.succeed } later)
    {a : Transport.Answer α} (hsuccess : a.isSuccess = true) {descriptor headers : Entries Json}
    (hbody : a.read true = .ok (.object descriptor)) {document : Text} {w : Wire}
    (hheaders : c.requestHeaders descriptor = .ok headers)
    (hw : (c.queryCall headers document).wire = .ok w) (reply : Reply α) :
    (ofPurposes c [.query document]).events [⟨0, now, reply⟩, ⟨0, later, .answered a⟩] =
      [.asked (descriptorRequest c.endpoints c.token), .fetched descriptor, .queried (0, w)] := by
  obtain ⟨asked, hasked⟩ := Client.descriptorCall_isOk.mpr haddress
  have hfirst : c.turn (.query document) 0 now (some reply) .starting =
      ({ c with channel := { c.channel with lastRequest := now }, holder := some 0 },
        .fetching (.awaiting asked 0), none) := by
    rw [Client.turn_starting_alone hunknown hholder]
    exact Client.fetch_running { c with holder := some 0 } now _ (some reply) .starting
      (hopen.advance_starting hasked _) rfl
  have hsecond := IsOpen.turn_fetching
    (c := { c with channel := { c.channel with lastRequest := now }, holder := some 0 })
    hlater hline hsuccess hbody hheaders hw 0 asked
  have hfetched : (Stage.fetching (.awaiting asked 0)).brought? (.answered a) = some descriptor :=
    Stage.brought?_eq_some.mpr ⟨asked, 0, a, rfl, rfl, hsuccess, hbody⟩
  show eventsOf ⟨c, [(.query document, .starting)]⟩ ⟨0, now, reply⟩ ++
    (eventsOf (step ⟨c, [(.query document, .starting)]⟩ ⟨0, now, reply⟩) ⟨0, later, .answered a⟩ ++
      []) = _
  rw [step_alone rfl, eventsOf_alone rfl, hfirst]
  dsimp only at hsecond ⊢
  rw [eventsOf_alone rfl, hfetched, hsecond, ← descriptorCall_eq_ok hasked]
  rfl

end Traffic

end FieldSearch.Repository
