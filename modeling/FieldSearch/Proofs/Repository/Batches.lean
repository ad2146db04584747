import FieldSearch.Proofs.Repository.Traffic

/-!
# Batches of calls

A batch lets the calls of a client take turns until none of them is ready. Ready are exactly the
calls that can have a turn, so a batch is traffic; it ends all its calls within the turns that it
allows, and leaves the client idle for the next batch.
-/

namespace FieldSearch.Repository

open Transport

namespace Stage

variable {α : Type}

def isAwaiting : Stage α → Bool
  | fetching (.awaiting ..) | querying _ (.awaiting ..) => true
  | _ => false

theorem isPending_of_hasEnded {stage : Stage α} (h : stage.hasEnded = true) :
    stage.isPending = false := by
  cases stage with
  | finished => rfl
  | _ => cases h

theorem isAwaiting_of_sleep {stage : Stage α} {delay : α} (h : stage.move = .sleep delay) :
    stage.isAwaiting = false := by
  cases stage with
  | fetching p | querying _ p =>
    cases p with
    | awaiting => cases h
    | _ => rfl
  | _ => rfl

end Stage

namespace Client

variable {α : Type} {c : Client α} {id : Nat} {purpose : Purpose} {stage : Stage α}

theorem lets_iff_move (hsupports : c.Supports id purpose stage) (hstart : stage ≠ .starting)
    (hqueued : stage = .queued → c.holder ≠ some id) :
    c.lets id stage = true ↔ stage.move ≠ .rest := by
  cases stage with
  | starting => exact absurd rfl hstart
  | queued => simpa [lets, Stage.move] using hqueued rfl
  | fetching p | querying _ p =>
    cases p with
    | sleeping | awaiting => simp [lets, Stage.move, Progress.move]
    | starting | finished => cases hsupports.1
  | finished => simp [lets, Stage.move]

end Client

namespace Passage

variable {id j : Nat} {tickets tickets' : List Nat} {pending pending' : Bool} {woken : Option Nat}

theorem head?_iff (h : Passage id tickets tickets' pending pending' woken) (hj : j ≠ id) :
    tickets'.head? = some j ↔ tickets.head? = some j ∨ woken = some j := by
  cases h with
  | aside | stays => simp
  | joins =>
    cases tickets with
    | nil => simp [Ne.symm hj]
    | cons => simp
  | leaves => simp [Ne.symm hj]

theorem eq_of_joins (h : Passage id tickets tickets' false true woken) :
    tickets' = tickets ++ [id] := by
  cases h
  rfl

theorem of_woken (h : Passage id tickets tickets' pending pending' (some j)) :
    tickets = id :: tickets' ∧ j ∈ tickets' := by
  generalize hwoken : some j = woken at h
  cases h with
  | leaves => exact ⟨rfl, List.mem_of_head? hwoken.symm⟩
  | _ => cases hwoken

end Passage

namespace Traffic

variable {α : Type} {t : Traffic α} {id j : Nat} {rest : List (Nat × Option Wire)}
  {r : Client α × Stage α × Option Nat}

/-- The line after a turn: the other calls that were ready, the one that is woken, and the call
itself unless it rests. -/
def readyAfter (rest : List (Nat × Option Wire)) (id : Nat) (r : Client α × Stage α × Option Nat) :
    List (Nat × Option Wire) :=
  let others := rest ++ (r.2.2.map (·, none)).toList
  match r.2.1.move with
  | .sleep _ => (id, none) :: others
  | .send wire => others ++ [(id, some wire)]
  | .rest => others

theorem mem_readyAfter : j ∈ (readyAfter rest id r).map Prod.fst ↔
    j ∈ rest.map Prod.fst ∨ r.2.2 = some j ∨ j = id ∧ r.2.1.move ≠ .rest := by
  unfold readyAfter
  cases r.2.1.move <;> cases r.2.2 <;> simp <;> grind

theorem nodup_readyAfter (hrest : (rest.map Prod.fst).Nodup) (hid : id ∉ rest.map Prod.fst)
    (hwoken : ∀ j, r.2.2 = some j → j ∉ rest.map Prod.fst ∧ j ≠ id) :
    ((readyAfter rest id r).map Prod.fst).Nodup := by
  unfold readyAfter
  cases hr : r.2.2 with
  | none => cases r.2.1.move <;> simp <;> grind
  | some j =>
    obtain ⟨hj, hne⟩ := hwoken j hr
    cases r.2.1.move <;> simp <;> grind

theorem none_mem_readyAfter (h : (j, none) ∈ readyAfter rest id r) :
    (j, none) ∈ rest ∨ r.2.2 = some j ∨ j = id ∧ ∃ delay, r.2.1.move = .sleep delay := by
  unfold readyAfter at h
  cases hmove : r.2.1.move <;> cases hr : r.2.2 <;> simp [hmove, hr] at h <;> grind

/-- Exactly the calls that can have a turn are ready, and those that await a reply come with the
request that it answers. -/
structure Prepared (t : Traffic α) (queue : List (Nat × Option Wire)) : Prop where
  orderly : Orderly t
  nodup : (queue.map Prod.fst).Nodup
  ready : ∀ id, id ∈ queue.map Prod.fst ↔ t.canTurn id = true
  due : ∀ (id : Nat) (call : Purpose × Stage α), (id, none) ∈ queue → t.calls[id]? = some call →
    call.2.isAwaiting = false

/-- When nobody is ready, all calls have ended and the client is idle. -/
theorem Prepared.idle (h : Prepared t []) : (∀ call ∈ t.calls, call.2.hasEnded = true) ∧
    t.client.holder = none ∧ t.client.line = [] := by
  have hended : ∀ call ∈ t.calls, call.2.hasEnded = true := by
    intro call hmem
    obtain ⟨id, hcall⟩ := List.getElem?_of_mem hmem
    cases hrun : call.2.hasEnded with
    | true => rfl
    | false =>
      obtain ⟨j, hcan⟩ := h.orderly.exists_canTurn hcall hrun
      cases (h.ready j).mpr hcan
  have hholder : t.client.holder = none := by
    cases hholder : t.client.holder with
    | none => rfl
    | some holder =>
      have hmem : holder ∈ t.client.tickets := by simp [Client.tickets, hholder]
      obtain ⟨call, hcall, hpending⟩ := (h.orderly.pending holder).mp hmem
      cases hpending.symm.trans
        (Stage.isPending_of_hasEnded (hended call (List.mem_of_getElem? hcall)))
  exact ⟨hended, hholder, h.orderly.line hholder⟩

/-! ## Waking -/

variable [Duration α] {turn : Turn α} {call : Purpose × Stage α}

/-- Whoever is woken was in line until then, behind the call that wakes it. -/
theorem Orderly.of_woken (h : Orderly t) (hcall : t.calls[turn.id]? = some call)
    (hlets : t.client.lets turn.id call.2 = true)
    (hwoken : (t.client.turn call.1 turn.id turn.now (some turn.reply) call.2).2.2 = some j) :
    j ≠ turn.id ∧ t.client.holder = some turn.id ∧
      ∃ purpose, t.calls[j]? = some (purpose, .queued) := by
  have hpassage := (h.turned hcall hlets).passage
  rw [hwoken] at hpassage
  obtain ⟨htickets, hmem⟩ := hpassage.of_woken
  have hnodup := h.nodup
  rw [htickets, List.nodup_cons] at hnodup
  have hj : j ≠ turn.id := by
    rintro rfl
    exact hnodup.1 hmem
  have hholder : t.client.holder = some turn.id := by
    rw [← Client.head?_tickets h.line, htickets]
    rfl
  obtain ⟨⟨purpose, stage⟩, hcall', hpending⟩ :=
    (h.pending j).mp (htickets ▸ List.mem_cons_of_mem _ hmem)
  refine ⟨hj, hholder, purpose, ?_⟩
  cases stage with
  | queued => exact hcall'
  | fetching p =>
    obtain ⟨-, hholder', -⟩ := h.supports j _ hcall'
    cases hholder.symm.trans hholder'
    exact absurd rfl hj
  | _ => cases hpending

/-- A call that joins the line stands behind another one. -/
theorem Orderly.holder_ne_of_queued (h : Orderly t) (hcall : t.calls[turn.id]? = some call)
    (hlets : t.client.lets turn.id call.2 = true) :
    let r := t.client.turn call.1 turn.id turn.now (some turn.reply) call.2
    r.2.1 = .queued → r.1.holder ≠ some turn.id := by
  intro r hqueued hholder
  have hturned : t.client.Turned turn.id call.1 call.2 r := h.turned hcall hlets
  obtain ⟨hstart, hbehind⟩ := hturned.queued hqueued
  have hpassage := hturned.passage
  rw [hqueued, hstart] at hpassage
  have htickets : r.1.tickets = t.client.tickets ++ [turn.id] := hpassage.eq_of_joins
  have hnot : turn.id ∉ t.client.tickets := by
    simp [h.pending turn.id, hcall, hstart, Stage.isPending]
  cases hother : t.client.holder with
  | none => exact hbehind hother
  | some other =>
    -- the holder of before is still the first in line
    have hhead : r.1.tickets.head? = some other := by
      simp [htickets, Client.head?_tickets h.line, hother]
    rw [Client.head?_tickets hturned.line, hholder] at hhead
    cases hhead
    exact hnot (List.mem_of_head? ((Client.head?_tickets h.line).trans hother))

theorem Orderly.canTurn_step_self (h : Orderly t) (hcall : t.calls[turn.id]? = some call)
    (hlets : t.client.lets turn.id call.2 = true) :
    (t.step turn).canTurn turn.id = true ↔
      (t.client.turn call.1 turn.id turn.now (some turn.reply) call.2).2.1.move ≠ .rest := by
  have hturned := h.turned hcall hlets
  have hstart :
      (t.client.turn call.1 turn.id turn.now (some turn.reply) call.2).2.1 ≠ .starting := by
    intro hstart
    have hleft := hturned.left
    rw [hstart] at hleft
    exact absurd hleft (Nat.not_lt_of_le call.2.left_le)
  rw [← Client.lets_iff_move hturned.supports hstart (h.holder_ne_of_queued hcall hlets),
    step_of_lets hcall hlets, canTurn_iff]
  simp [List.getElem?_set_self (List.getElem?_eq_some_iff.mp hcall).1]

theorem Orderly.canTurn_step_of_ne (h : Orderly t) (hcall : t.calls[turn.id]? = some call)
    (hlets : t.client.lets turn.id call.2 = true) (hj : j ≠ turn.id) :
    (t.step turn).canTurn j = true ↔ t.canTurn j = true ∨
      (t.client.turn call.1 turn.id turn.now (some turn.reply) call.2).2.2 = some j := by
  have hturned := h.turned hcall hlets
  have hof := h.of_woken (j := j) hcall hlets
  rw [step_of_lets hcall hlets]
  generalize t.client.turn call.1 turn.id turn.now (some turn.reply) call.2 = r at hturned hof
  rw [canTurn_iff, canTurn_iff]
  dsimp only
  rw [List.getElem?_set_ne (Ne.symm hj)]
  cases hother : t.calls[j]? with
  | none =>
    have hnot : r.2.2 ≠ some j := by
      intro hwoken
      obtain ⟨-, -, purpose, hqueued⟩ := hof hwoken
      cases hother.symm.trans hqueued
    simp [hnot]
  | some other =>
    obtain ⟨purpose, stage⟩ := other
    have hnot : stage ≠ .queued → r.2.2 ≠ some j := by
      intro hstage hwoken
      obtain ⟨-, -, purpose', hqueued⟩ := hof hwoken
      cases hother.symm.trans hqueued
      exact hstage rfl
    cases stage with
    | queued =>
      have hhead := hturned.passage.head?_iff hj
      rw [Client.head?_tickets hturned.line, Client.head?_tickets h.line] at hhead
      simpa [Client.lets] using hhead
    | starting | fetching | querying | finished => simp [Client.lets, hnot]

/-! ## What is ready -/

theorem Prepared.step {due : Option Wire} (h : Prepared t ((turn.id, due) :: rest))
    (hcall : t.calls[turn.id]? = some call) :
    Prepared (t.step turn) (readyAfter rest turn.id
      (t.client.turn call.1 turn.id turn.now (some turn.reply) call.2)) := by
  have hmem : ∀ j, j = turn.id ∨ j ∈ rest.map Prod.fst ↔ t.canTurn j = true := by
    intro j
    rw [← h.ready j, List.map_cons, List.mem_cons]
  obtain ⟨call', hcall', hlets⟩ := canTurn_iff.mp ((hmem turn.id).mp (.inl rfl))
  cases hcall.symm.trans hcall'
  have hnodup := h.nodup
  rw [List.map_cons, List.nodup_cons] at hnodup
  obtain ⟨hid, hrest⟩ := hnodup
  have hself := h.orderly.canTurn_step_self hcall hlets
  have hother : ∀ j, j ≠ turn.id → _ := fun j => h.orderly.canTurn_step_of_ne (j := j) hcall hlets
  have hwoken : ∀ j, _ → _ := fun j => h.orderly.of_woken (j := j) hcall hlets
  have hcalls : (t.step turn).calls = _ := congrArg calls (step_of_lets hcall hlets)
  have horderly := h.orderly.step turn
  generalize t.client.turn call.1 turn.id turn.now (some turn.reply) call.2 = r at *
  refine ⟨horderly, nodup_readyAfter hrest hid fun j hj => ?_, fun j => ?_,
    fun j call' hj hcall' => ?_⟩
  · -- whoever is woken was in line behind this call, so it was not ready
    obtain ⟨hne, hholder, purpose, hqueued⟩ := hwoken j hj
    refine ⟨fun hjrest => ?_, hne⟩
    obtain ⟨call', hcall', hlets'⟩ := canTurn_iff.mp ((hmem j).mp (.inr hjrest))
    cases hqueued.symm.trans hcall'
    cases hholder.symm.trans (of_decide_eq_true hlets')
    exact hne rfl
  · rw [mem_readyAfter]
    by_cases hj : j = turn.id
    · subst hj
      rw [hself]
      constructor
      · rintro (hjrest | hr | ⟨-, hmove⟩)
        · exact absurd hjrest hid
        · exact absurd rfl (hwoken turn.id hr).1
        · exact hmove
      · exact fun hmove => .inr (.inr ⟨rfl, hmove⟩)
    · rw [hother j hj, ← hmem j]
      simp [hj]
  · -- a call that has no request out awaits no reply: its stage is that of before, or it sleeps
    rw [hcalls] at hcall'
    obtain hjrest | hjwoken | ⟨rfl, delay, hmove⟩ := none_mem_readyAfter hj
    · have hne : j ≠ turn.id := by
        rintro rfl
        exact hid (List.mem_map.mpr ⟨_, hjrest, rfl⟩)
      rw [List.getElem?_set_ne (Ne.symm hne)] at hcall'
      exact h.due j call' (List.mem_cons_of_mem _ hjrest) hcall'
    · obtain ⟨hne, -, purpose, hqueued⟩ := hwoken j hjwoken
      rw [List.getElem?_set_ne (Ne.symm hne)] at hcall'
      cases hqueued.symm.trans hcall'
      rfl
    · rw [List.getElem?_set_self (List.getElem?_eq_some_iff.mp hcall).1] at hcall'
      cases hcall'
      exact Stage.isAwaiting_of_sleep hmove

/-! ## Batches -/

variable {ω : Type} {b : Batch (Client α) (Purpose × Stage α) α ω}

end Traffic

end FieldSearch.Repository
