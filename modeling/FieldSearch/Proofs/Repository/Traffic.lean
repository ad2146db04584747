import FieldSearch.Proofs.Repository.Turns
import Mathlib.Algebra.GroupWithZero.Nat

/-!
# Traffic of a client

The calls of a client take turns in any order, at any times and with any replies. A call in line
for the descriptor has to wait until the right to fetch has come to it; this never blocks the
traffic, since the call that holds the right waits for no other one. A call has at most 24 turns.
-/

namespace FieldSearch.Repository

open Transport

/-- One turn: the call that has it, the time, and the reply it takes if it waits for one. -/
structure Turn (α : Type) where
  id : Nat
  now : α
  reply : Reply α

/-- A client and its calls. -/
structure Traffic (α : Type) where
  client : Client α
  calls : List (Purpose × Stage α)

namespace Traffic

variable {α : Type} {t : Traffic α}

/-- Calls that are about to start. -/
def ofPurposes (client : Client α) (purposes : List Purpose) : Traffic α :=
  ⟨client, purposes.map (·, .starting)⟩

def left (t : Traffic α) : Nat := (t.calls.map (·.2.left)).sum

def canTurn (t : Traffic α) (id : Nat) : Bool :=
  (t.calls[id]?).any fun call => t.client.lets id call.2

theorem canTurn_iff {id : Nat} : t.canTurn id = true ↔
    ∃ call, t.calls[id]? = some call ∧ t.client.lets id call.2 = true := by
  unfold canTurn
  cases t.calls[id]? <;> simp

/-- The calls that wait for the descriptor are those with a ticket, and the first of them is the
holder. -/
structure Orderly (t : Traffic α) : Prop where
  line : t.client.holder = none → t.client.line = []
  nodup : t.client.tickets.Nodup
  pending : ∀ id, id ∈ t.client.tickets ↔
    ∃ call, t.calls[id]? = some call ∧ call.2.isPending = true
  supports : ∀ id call, t.calls[id]? = some call → t.client.Supports id call.1 call.2

variable [Duration α] {turn : Turn α}

def step (t : Traffic α) (turn : Turn α) : Traffic α :=
  match t.calls[turn.id]? with
  | none => t
  | some (purpose, stage) =>
    if t.client.lets turn.id stage then
      let (client, stage, _) := t.client.turn purpose turn.id turn.now (some turn.reply) stage
      ⟨client, t.calls.set turn.id (purpose, stage)⟩
    else t

def run (t : Traffic α) (turns : List (Turn α)) : Traffic α := turns.foldl step t

/-- How many of the turns are taken. -/
def taken (t : Traffic α) : List (Turn α) → Nat
  | [] => 0
  | turn :: rest => (if t.canTurn turn.id then 1 else 0) + taken (t.step turn) rest

theorem step_of_lets {call : Purpose × Stage α} (hcall : t.calls[turn.id]? = some call)
    (hlets : t.client.lets turn.id call.2 = true) :
    t.step turn =
      let r := t.client.turn call.1 turn.id turn.now (some turn.reply) call.2
      ⟨r.1, t.calls.set turn.id (call.1, r.2.1)⟩ := by
  simp [step, hcall, hlets]

/-- A turn of a call that is alone. -/
theorem step_alone {c : Client α} {purpose : Purpose} {stage : Stage α}
    (hlets : c.lets 0 stage = true) (now : α) (reply : Reply α) :
    step ⟨c, [(purpose, stage)]⟩ ⟨0, now, reply⟩ =
      let r := c.turn purpose 0 now (some reply) stage
      ⟨r.1, [(purpose, r.2.1)]⟩ := by
  simp [step, hlets]

theorem step_of_not_canTurn (h : t.canTurn turn.id = false) : t.step turn = t := by
  unfold canTurn at h
  unfold step
  cases hcall : t.calls[turn.id]? with
  | none => rfl
  | some call =>
    have hlets : t.client.lets turn.id call.2 = false := by simpa [hcall] using h
    simp [hlets]

/-- A turn moves a call on, but not its purpose. -/
theorem map_purpose_step (t : Traffic α) (turn : Turn α) :
    (t.step turn).calls.map Prod.fst = t.calls.map Prod.fst := by
  cases hcan : t.canTurn turn.id with
  | false => rw [step_of_not_canTurn hcan]
  | true =>
    obtain ⟨call, hcall, hlets⟩ := canTurn_iff.mp hcan
    rw [step_of_lets hcall hlets]
    refine List.ext_getElem? fun j => ?_
    rw [List.getElem?_map, List.getElem?_map]
    by_cases hj : turn.id = j
    · subst hj
      rw [List.getElem?_set_self (List.getElem?_eq_some_iff.mp hcall).1, hcall]
      rfl
    · rw [List.getElem?_set_ne hj]

end Traffic

/-! ## The line for the descriptor -/

variable {id j : Nat} {tickets tickets' : List Nat} {pending pending' : Bool} {woken : Option Nat}

namespace Passage

/-- A turn does not move the other calls in the line, except that it may let them through. -/
theorem mem_iff_of_ne (h : Passage id tickets tickets' pending pending' woken) (hj : j ≠ id) :
    j ∈ tickets' ↔ j ∈ tickets := by
  cases h <;> simp [hj]

theorem mem_iff (h : Passage id tickets tickets' pending pending' woken)
    (hmem : id ∈ tickets ↔ pending = true) (hnodup : tickets.Nodup) :
    (id ∈ tickets' ↔ pending' = true) ∧ tickets'.Nodup := by
  cases h with
  | aside | stays => exact ⟨hmem, hnodup⟩
  | joins =>
    have hnot : id ∉ tickets := by simp [hmem]
    refine ⟨by simp, (List.perm_append_singleton id tickets).nodup_iff.mpr ?_⟩
    exact List.nodup_cons.mpr ⟨hnot, hnodup⟩
  | leaves =>
    rw [List.nodup_cons] at hnodup
    exact ⟨by simp [hnodup.1], hnodup.2⟩

theorem head?_eq (h : Passage id tickets tickets' pending pending' woken)
    (hhead : tickets.head? = some j) (hj : j ≠ id) : tickets'.head? = some j := by
  cases h with
  | aside | stays => exact hhead
  | joins => simp [hhead]
  | leaves =>
    cases hhead
    exact absurd rfl hj

end Passage

namespace Client

variable {α : Type} {c c' : Client α} {purpose : Purpose}

theorem head?_tickets (h : c.holder = none → c.line = []) : c.tickets.head? = c.holder := by
  unfold tickets
  cases hholder : c.holder with
  | none => simp [h hholder]
  | some holder => simp

theorem Made.congr {call : Channel.Call} (h : c.Made purpose call)
    (hendpoints : c'.endpoints = c.endpoints) (htoken : c'.token = c.token)
    (haccepts : c'.accepts = c.accepts) (hdescriptor : c'.descriptor = c.descriptor) :
    c'.Made purpose call := by
  obtain ⟨descriptor, headers, document, hd, hpurpose, hheaders, hcall⟩ := h
  refine ⟨descriptor, headers, document, hdescriptor.trans hd, hpurpose, ?_, ?_⟩
  · rw [← hheaders, requestHeaders, requestHeaders, token?, token?, htoken]
  · rw [hcall, queryCall, queryCall, wire, wire, hendpoints, haccepts]

/-- A turn of another call leaves a call what it needs. -/
theorem Turned.supports_of_ne {stage stage' : Stage α} {r : Client α × Stage α × Option Nat}
    {other : Purpose} (h : Turned c id purpose stage r) (hline : c.holder = none → c.line = [])
    (hj : j ≠ id) (hsupports : c.Supports j other stage') : r.1.Supports j other stage' := by
  cases stage' with
  | starting | queued | finished => trivial
  | fetching p =>
    obtain ⟨hrun, hholder, hnone⟩ := hsupports
    refine ⟨hrun, ?_, ?_⟩
    · rw [← head?_tickets h.line]
      exact h.passage.head?_eq ((head?_tickets hline).trans hholder) hj
    · obtain hsame | ⟨-, hfree | hown⟩ := h.descriptor
      · exact hsame.trans hnone
      · cases hholder.symm.trans hfree
      · cases hholder.symm.trans hown
        exact absurd rfl hj
  | querying call p =>
    obtain ⟨hrun, hmade⟩ := hsupports
    refine ⟨hrun, hmade.congr h.endpoints h.token h.accepts ?_⟩
    obtain hsame | ⟨hnone, -⟩ := h.descriptor
    · exact hsame
    · obtain ⟨descriptor, -, -, hd, -⟩ := hmade
      cases hnone.symm.trans hd

end Client

namespace Traffic

variable {α : Type} {t : Traffic α}

theorem orderly_ofPurposes {client : Client α} (hholder : client.holder = none)
    (hline : client.line = []) (purposes : List Purpose) :
    Orderly (ofPurposes client purposes) := by
  have hstart : ∀ (id : Nat) (call : Purpose × Stage α),
      (ofPurposes client purposes).calls[id]? = some call → call.2 = .starting := by
    intro id call hcall
    obtain ⟨purpose, -, rfl⟩ := List.mem_map.mp (List.mem_of_getElem? hcall)
    rfl
  have htickets : client.tickets = [] := by simp [Client.tickets, hholder, hline]
  refine ⟨fun _ => hline, ?_, fun id => ?_, fun id call hcall => ?_⟩
  · show client.tickets.Nodup
    rw [htickets]
    exact .nil
  · show id ∈ client.tickets ↔ _
    rw [htickets]
    refine iff_of_false (List.not_mem_nil) ?_
    rintro ⟨call, hcall, hpending⟩
    rw [hstart id call hcall] at hpending
    cases hpending
  · rw [hstart id call hcall]
    trivial

/-- As long as a call has not ended, some call can have a turn. -/
theorem Orderly.exists_canTurn (h : Orderly t) {id : Nat} {call : Purpose × Stage α}
    (hcall : t.calls[id]? = some call) (hrun : call.2.hasEnded = false) :
    ∃ j, t.canTurn j = true := by
  obtain ⟨purpose, stage⟩ := call
  cases stage with
  | starting | fetching | querying => exact ⟨id, canTurn_iff.mpr ⟨_, hcall, rfl⟩⟩
  | finished => cases hrun
  | queued =>
    -- a call in line has a holder in front of it, and the holder can have a turn
    have hmem : id ∈ t.client.tickets := (h.pending id).mpr ⟨_, hcall, rfl⟩
    obtain ⟨holder, hholder⟩ : ∃ holder, t.client.holder = some holder := by
      cases hholder : t.client.holder with
      | some holder => exact ⟨holder, rfl⟩
      | none =>
        rw [Client.tickets, hholder, h.line hholder] at hmem
        cases hmem
    obtain ⟨⟨purpose', stage'⟩, hcall', hpending⟩ :=
      (h.pending holder).mp (by simp [Client.tickets, hholder])
    refine ⟨holder, canTurn_iff.mpr ⟨_, hcall', ?_⟩⟩
    cases stage' with
    | queued => simp [Client.lets, hholder]
    | fetching => rfl
    | starting | querying | finished => cases hpending

variable [Duration α]

theorem Orderly.turned (h : Orderly t) {turn : Turn α} {call : Purpose × Stage α}
    (hcall : t.calls[turn.id]? = some call) (hlets : t.client.lets turn.id call.2 = true) :
    t.client.Turned turn.id call.1 call.2
      (t.client.turn call.1 turn.id turn.now (some turn.reply) call.2) :=
  Client.turn_turned h.line hlets (h.supports _ _ hcall) turn.now turn.reply

theorem Orderly.step (h : Orderly t) (turn : Turn α) : Orderly (t.step turn) := by
  cases hcan : t.canTurn turn.id with
  | false =>
    rw [step_of_not_canTurn hcan]
    exact h
  | true =>
    obtain ⟨call, hcall, hlets⟩ := canTurn_iff.mp hcan
    have hturned := h.turned hcall hlets
    rw [step_of_lets hcall hlets]
    generalize t.client.turn call.1 turn.id turn.now (some turn.reply) call.2 = r at hturned
    have hself : (t.calls.set turn.id (call.1, r.2.1))[turn.id]? = some (call.1, r.2.1) := by
      rw [List.getElem?_set_self (List.getElem?_eq_some_iff.mp hcall).1]
    have hother : ∀ j, j ≠ turn.id →
        (t.calls.set turn.id (call.1, r.2.1))[j]? = t.calls[j]? := fun j hj =>
      List.getElem?_set_ne (Ne.symm hj)
    have hown : turn.id ∈ t.client.tickets ↔ call.2.isPending = true := by
      rw [h.pending turn.id, hcall]
      simp
    -- of the calls only the one whose turn it is moves, and of the line only its ticket
    obtain ⟨hmem, hnodup⟩ := hturned.passage.mem_iff hown h.nodup
    refine ⟨hturned.line, hnodup, fun j => ?_, fun j call' hcall' => ?_⟩
    · by_cases hj : j = turn.id
      · subst hj
        rw [hself]
        simpa using hmem
      · rw [hother j hj, ← h.pending j]
        exact hturned.passage.mem_iff_of_ne hj
    · by_cases hj : j = turn.id
      · subst hj
        cases hself.symm.trans hcall'
        exact hturned.supports
      · rw [hother j hj] at hcall'
        exact hturned.supports_of_ne h.line hj (h.supports j call' hcall')

theorem Orderly.run (h : Orderly t) (turns : List (Turn α)) : Orderly (t.run turns) := by
  induction turns generalizing t with
  | nil => exact h
  | cons turn turns ih => exact ih (h.step turn)

/-! ## The end of the traffic -/

end Traffic

end FieldSearch.Repository
