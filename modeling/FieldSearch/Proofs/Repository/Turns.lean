import FieldSearch.Proofs.Repository.Shapes
import FieldSearch.Proofs.Transport.Attempts

/-!
# Turns of a client

What a client does in one turn of a call: what it keeps, how the line for the descriptor moves, and
how much nearer the call comes to its end.
-/

namespace FieldSearch.Repository

open Transport

namespace Stage

variable {α : Type}

def hasEnded : Stage α → Bool
  | finished _ => true
  | starting | queued | fetching _ | querying .. => false

/-- Waiting for the right to fetch the descriptor, or using it. -/
def isPending : Stage α → Bool
  | queued | fetching _ => true
  | starting | querying .. | finished _ => false

theorem ne_queued {stage : Stage α} (h : stage.isPending = false) : stage ≠ queued := by
  intro hqueued
  rw [hqueued] at h
  cases h

/-- How many turns a call has left at most. -/
def left : Stage α → Nat
  | starting => 24
  | queued => 23
  | fetching p => p.left + 11
  | querying _ p => p.left
  | finished _ => 0

theorem left_le (stage : Stage α) : stage.left ≤ 24 := by
  cases stage with
  | fetching p => exact Nat.le_trans (Nat.add_le_add_right p.left_le 11) (by decide)
  | querying _ p => exact Nat.le_trans p.left_le (by decide)
  | _ => simp [left]

end Stage

namespace Client

variable {α : Type}

/-- The call that may fetch, and those in line behind it. -/
def tickets (c : Client α) : List Nat := c.holder.toList ++ c.line

/-- Whether a call can have a turn: it has not ended, and is not in line behind another one. -/
def lets (c : Client α) (id : Nat) : Stage α → Bool
  | .queued => c.holder = some id
  | .finished _ => false
  | .starting | .fetching _ | .querying .. => true

end Client

/-! ## Parts of a turn -/

/-- What a turn does to the line for the descriptor: whether its call is pending before and after
it, and who is woken. -/
inductive Passage (id : Nat) : List Nat → List Nat → Bool → Bool → Option Nat → Prop
  | aside (tickets : List Nat) : Passage id tickets tickets false false none
  | joins (tickets : List Nat) : Passage id tickets (tickets ++ [id]) false true none
  | stays (tickets : List Nat) : Passage id tickets tickets true true none
  | leaves (tickets : List Nat) : Passage id (id :: tickets) tickets true false tickets.head?

/-- Where nobody is in line, a call that joins and leaves has passed by. -/
theorem Passage.of_alone {id : Nat} {tickets : List Nat} {pending : Bool} {woken : Option Nat}
    (h : Passage id [id] tickets true pending woken) :
    Passage id [] tickets false pending woken := by
  cases h with
  | stays => exact .joins []
  | leaves => exact .aside []

namespace Client

variable {α : Type} {c : Client α} {id : Nat} {purpose : Purpose} {stage : Stage α}
  {descriptor : Entries Json}

/-- A query of this call is made from the descriptor that the client has. -/
def Made (c : Client α) (purpose : Purpose) (call : Channel.Call) : Prop :=
  ∃ descriptor headers document, c.descriptor = some descriptor ∧ purpose = .query document ∧
    c.requestHeaders descriptor = .ok headers ∧ call = c.queryCall headers document

/-- Only the holder fetches, and only a descriptor that is not there yet. -/
def Supports (c : Client α) (id : Nat) (purpose : Purpose) : Stage α → Prop
  | .starting | .queued | .finished _ => True
  | .fetching p => p.isRunning = true ∧ c.holder = some id ∧ c.descriptor = none
  | .querying call p => p.isRunning = true ∧ c.Made purpose call

/-- What a turn does: it keeps what was configured, and a descriptor that is there; it moves the
line for the descriptor by its own call at most; and it brings the call nearer to its end. -/
structure Turned (c : Client α) (id : Nat) (purpose : Purpose) (stage : Stage α)
    (r : Client α × Stage α × Option Nat) : Prop where
  endpoints : r.1.endpoints = c.endpoints
  token : r.1.token = c.token
  accepts : r.1.accepts = c.accepts
  descriptor : r.1.descriptor = c.descriptor ∨
    c.descriptor = none ∧ (c.holder = none ∨ c.holder = some id)
  line : r.1.holder = none → r.1.line = []
  passage : Passage id c.tickets r.1.tickets stage.isPending r.2.1.isPending r.2.2
  supports : r.1.Supports id purpose r.2.1
  queued : r.2.1 = .queued → stage = .starting ∧ c.holder ≠ none
  left : r.2.1.left < stage.left

theorem release_eq (c : Client α) :
    ∃ holder line woken, c.release = ({ c with holder, line }, woken) := by
  unfold release
  split
  · exact ⟨none, c.line, none, rfl⟩
  · rename_i next rest _
    exact ⟨some next, rest, some next, rfl⟩

theorem release_spec (h : c.holder = some id) :
    ∃ holder line, c.release = ({ c with holder, line }, (holder.toList ++ line).head?) ∧
      c.tickets = id :: (holder.toList ++ line) ∧ (holder = none → line = []) := by
  unfold release tickets
  split
  · rename_i hline
    exact ⟨none, c.line, by simp [hline], by simp [h, hline], fun _ => hline⟩
  · rename_i next rest hline
    exact ⟨some next, rest, rfl, by simp [h, hline], nofun⟩

theorem settleQuery_left (call : Channel.Call) (p : Progress α) :
    (settleQuery call p).left ≤ p.left := by
  unfold settleQuery
  split
  · exact Nat.zero_le _
  · exact Nat.zero_le _
  · exact Nat.le_refl _

theorem settleQuery_isPending (call : Channel.Call) (p : Progress α) :
    (settleQuery call p).isPending = false := by
  unfold settleQuery
  split <;> rfl

theorem settleQuery_supports {call : Channel.Call} {p : Progress α} (h : c.Made purpose call)
    (hleft : p.left < 12) : c.Supports id purpose (settleQuery call p) := by
  cases p with
  | starting => exact absurd hleft (Nat.lt_irrefl 12)
  | finished outcome => cases outcome <;> trivial
  | sleeping | awaiting => exact ⟨rfl, h⟩

theorem turned_of_release {channel : Channel α} {descriptor : Option (Entries Json)}
    {holder : Option Nat} {line : List Nat} {stage' : Stage α}
    (hdescriptor : descriptor = c.descriptor ∨ c.descriptor = none ∧ c.holder = some id)
    (htickets : c.tickets = id :: (holder.toList ++ line)) (hline : holder = none → line = [])
    (hpending : stage.isPending = true) (hpending' : stage'.isPending = false)
    (hsupports : Supports { c with channel, descriptor, holder, line } id purpose stage')
    (hleft : stage'.left < stage.left) :
    Turned c id purpose stage
      ({ c with channel, descriptor, holder, line }, stage', (holder.toList ++ line).head?) := by
  refine ⟨rfl, rfl, rfl, hdescriptor.imp_right (And.imp_right .inr), hline, ?_, hsupports,
    fun h => absurd h (Stage.ne_queued hpending'), hleft⟩
  rw [htickets, hpending, hpending']
  exact .leaves _

variable [Duration α]

/-- With the descriptor at hand a call ends, or it has made its query. -/
theorem withDescriptor_spec (h : c.descriptor = some descriptor) (now : α) (purpose : Purpose)
    (id : Nat) :
    ∃ channel stage, c.withDescriptor now descriptor purpose = ({ c with channel }, stage) ∧
      stage.isPending = false ∧ stage.left ≤ 11 ∧ Supports { c with channel } id purpose stage := by
  cases purpose with
  | descriptor => exact ⟨c.channel, _, rfl, rfl, Nat.zero_le _, trivial⟩
  | headers => exact ⟨c.channel, _, rfl, rfl, Nat.zero_le _, trivial⟩
  | query document =>
    unfold withDescriptor
    cases hheaders : c.requestHeaders descriptor with
    | error fault => exact ⟨c.channel, _, rfl, rfl, Nat.zero_le _, trivial⟩
    | ok headers =>
      have hleft := Channel.advance_left c.channel now (c.queryCall headers document) (.failed [])
        (p := .starting) rfl
      refine ⟨_, _, rfl, settleQuery_isPending .., ?_, settleQuery_supports ?_ hleft⟩
      · exact Nat.le_trans (settleQuery_left ..) (Nat.le_of_lt_succ hleft)
      · exact ⟨descriptor, headers, document, h, rfl, hheaders, rfl⟩

/-! ## Turns of a call that has sent nothing -/

theorem turn_starting_known (h : c.descriptor = some descriptor) (purpose : Purpose) (id : Nat)
    (now : α) (reply : Option (Reply α)) :
    c.turn purpose id now reply .starting =
      let went := c.withDescriptor now descriptor purpose
      (went.1, went.2, none) := by
  simp only [turn, h]

theorem turn_starting_behind {other : Nat} (h : c.descriptor = none) (hholder : c.holder = some other)
    (purpose : Purpose) (id : Nat) (now : α) (reply : Option (Reply α)) :
    c.turn purpose id now reply .starting = ({ c with line := c.line ++ [id] }, .queued, none) := by
  simp only [turn, h, hholder]

/-- A fetch that starts takes no reply, so it does not matter whether there is one. -/
theorem turn_starting_alone (h : c.descriptor = none) (hholder : c.holder = none)
    (purpose : Purpose) (id : Nat) (now : α) (reply : Reply α) :
    c.turn purpose id now (some reply) .starting =
      fetch { c with holder := some id } now purpose (some reply) .starting := by
  simp only [turn, h, hholder]
  rfl

theorem turn_queued_known {c' : Client α} {woken : Option Nat} (h : c.descriptor = some descriptor)
    (hrelease : c.release = (c', woken)) (purpose : Purpose) (id : Nat) (now : α)
    (reply : Option (Reply α)) :
    c.turn purpose id now reply .queued =
      let went := c'.withDescriptor now descriptor purpose
      (went.1, went.2, woken) := by
  simp only [turn, h, hrelease]

theorem turn_queued_unknown (h : c.descriptor = none) (purpose : Purpose) (id : Nat) (now : α)
    (reply : Reply α) :
    c.turn purpose id now (some reply) .queued =
      c.fetch now purpose (some reply) .starting := by
  simp only [turn, h]
  rfl

theorem fetch_running (c : Client α) (now : α) (purpose : Purpose) (reply : Option (Reply α))
    (p : Progress α) {moved : Channel α × Progress α}
    (h : c.channel.advance now c.descriptorCall reply p = moved) (hrun : moved.2.hasEnded = false) :
    c.fetch now purpose reply p = ({ c with channel := moved.1 }, .fetching moved.2, none) := by
  obtain ⟨channel, p'⟩ := moved
  unfold fetch
  rw [h]
  cases p' with
  | finished => cases hrun
  | _ => rfl

/-! ## What a turn does -/

/-- The holder goes on fetching, or it has ended that and passes the right on. -/
theorem fetch_turned {p : Progress α} (hholder : c.holder = some id) (hnone : c.descriptor = none)
    (hrun : p.hasEnded = false) (now : α) (purpose : Purpose) (reply : Reply α) :
    Turned c id purpose (.fetching p) (c.fetch now purpose (some reply) p) := by
  have hleft := Channel.advance_left c.channel now c.descriptorCall reply hrun
  have hpos := Progress.left_pos hrun
  unfold fetch
  generalize c.channel.advance now c.descriptorCall (some reply) p = moved at hleft
  obtain ⟨channel, p'⟩ := moved
  dsimp only at hleft ⊢
  -- without a descriptor the call ends, and the right to fetch is passed on
  have hfailed : ∀ fault : Fault α, Turned c id purpose (.fetching p)
      (let released := ({ c with channel } : Client α).release
       (released.1, .finished (.error fault), released.2)) := by
    intro fault
    obtain ⟨holder, line, hrelease, htickets, hline⟩ :=
      release_spec (c := { c with channel }) hholder
    rw [hrelease]
    exact turned_of_release (.inl rfl) htickets hline rfl rfl trivial (Nat.add_pos_left hpos 11)
  cases p' with
  | finished outcome =>
    cases outcome with
    | error r => exact hfailed (.refused r)
    | ok value =>
      cases value with
      | object descriptor =>
        obtain ⟨holder, line, hrelease, htickets, hline⟩ :=
          release_spec (c := { c with channel, descriptor := some descriptor }) hholder
        obtain ⟨channel', stage', hwith, hpending, hleft', hsupports⟩ := withDescriptor_spec
          (c := { c with channel, descriptor := some descriptor, holder, line }) rfl now purpose id
        rw [settleFetch, hrelease]
        dsimp only
        rw [hwith]
        exact turned_of_release (.inr ⟨hnone, hholder⟩) htickets hline rfl hpending hsupports
          (Nat.lt_of_le_of_lt hleft' (Nat.lt_add_of_pos_left hpos))
      | _ => exact hfailed .badDescriptor
  | starting => exact absurd (Nat.lt_of_lt_of_le hleft p.left_le) (Nat.lt_irrefl 12)
  | sleeping | awaiting =>
    refine ⟨rfl, rfl, rfl, .inl rfl, fun h => ?_, .stays c.tickets, ⟨rfl, hholder, hnone⟩, nofun,
      Nat.add_lt_add_right hleft 11⟩
    cases hholder.symm.trans h

theorem starting_turned (hline : c.holder = none → c.line = []) (now : α) (purpose : Purpose)
    (reply : Reply α) :
    Turned c id purpose .starting (c.turn purpose id now (some reply) .starting) := by
  cases hdescriptor : c.descriptor with
  | some descriptor =>
    obtain ⟨channel, stage', hwith, hpending, hleft, hsupports'⟩ :=
      withDescriptor_spec hdescriptor now purpose id
    rw [turn_starting_known hdescriptor, hwith]
    refine ⟨rfl, rfl, rfl, .inl rfl, hline, ?_, hsupports',
      fun h => absurd h (Stage.ne_queued hpending), ?_⟩
    · rw [hpending]
      exact .aside c.tickets
    · exact Nat.lt_of_le_of_lt hleft (by simp [Stage.left])
  | none =>
    cases hholder : c.holder with
    | some other =>
      have htickets : tickets { c with line := c.line ++ [id] } = c.tickets ++ [id] := by
        simp [tickets]
      rw [turn_starting_behind hdescriptor hholder]
      refine ⟨rfl, rfl, rfl, .inl rfl, fun h => ?_, ?_, trivial, fun _ => ⟨rfl, by simp [hholder]⟩,
        Nat.le_refl _⟩
      · cases hholder.symm.trans h
      · rw [htickets]
        exact .joins c.tickets
    | none =>
      have htickets : c.tickets = [] := by simp [tickets, hholder, hline hholder]
      have hown : tickets { c with holder := some id } = [id] := by simp [tickets, hline hholder]
      obtain ⟨he, ht, ha, -, hl, hpassage, hs, hqueued, hleft⟩ :=
        fetch_turned (c := { c with holder := some id }) (p := .starting) rfl hdescriptor rfl now
          purpose reply
      rw [hown] at hpassage
      rw [turn_starting_alone hdescriptor hholder]
      refine ⟨he, ht, ha, .inr ⟨hdescriptor, .inl hholder⟩, hl, ?_, hs, fun h => ?_,
        Nat.lt_succ_of_lt hleft⟩
      · rw [htickets]
        exact hpassage.of_alone
      · cases (hqueued h).1

theorem queued_turned (hholder : c.holder = some id) (now : α) (purpose : Purpose)
    (reply : Reply α) :
    Turned c id purpose .queued (c.turn purpose id now (some reply) .queued) := by
  cases hdescriptor : c.descriptor with
  | some descriptor =>
    obtain ⟨holder, line, hrelease, htickets, hline⟩ := release_spec hholder
    obtain ⟨channel, stage', hwith, hpending, hleft, hsupports⟩ :=
      withDescriptor_spec (c := { c with holder, line }) hdescriptor now purpose id
    rw [turn_queued_known hdescriptor hrelease, hwith]
    exact turned_of_release (.inl rfl) htickets hline rfl hpending hsupports
      (Nat.lt_of_le_of_lt hleft (by simp [Stage.left]))
  | none =>
    rw [turn_queued_unknown hdescriptor]
    obtain ⟨he, ht, ha, hd, hl, hpassage, hs, hqueued, hleft⟩ :=
      fetch_turned (p := .starting) hholder hdescriptor rfl now purpose reply
    refine ⟨he, ht, ha, hd, hl, hpassage, hs, fun h => ?_, hleft⟩
    cases (hqueued h).1

theorem turn_turned (hline : c.holder = none → c.line = []) (hlets : c.lets id stage = true)
    (hsupports : c.Supports id purpose stage) (now : α) (reply : Reply α) :
    Turned c id purpose stage (c.turn purpose id now (some reply) stage) := by
  cases stage with
  | starting => exact starting_turned hline now purpose reply
  | queued => exact queued_turned (by simpa [lets] using hlets) now purpose reply
  | fetching p =>
    obtain ⟨hrun, hholder, hnone⟩ := hsupports
    exact fetch_turned hholder hnone (Progress.hasEnded_of_isRunning hrun) now purpose reply
  | querying call p =>
    obtain ⟨hrun, hmade⟩ := hsupports
    have hleft :=
      Channel.advance_left c.channel now call reply (Progress.hasEnded_of_isRunning hrun)
    refine ⟨rfl, rfl, rfl, .inl rfl, hline, ?_,
      settleQuery_supports hmade (Nat.lt_of_lt_of_le hleft p.left_le),
      fun h => absurd h (Stage.ne_queued (settleQuery_isPending ..)), ?_⟩
    · show Passage id c.tickets c.tickets false (settleQuery call _).isPending none
      rw [settleQuery_isPending]
      exact .aside c.tickets
    · exact Nat.lt_of_le_of_lt (settleQuery_left ..) hleft
  | finished result => cases hlets

end Client

end FieldSearch.Repository
