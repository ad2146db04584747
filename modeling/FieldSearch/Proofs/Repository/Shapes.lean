import FieldSearch.Proofs.Json.Writable
import FieldSearch.Proofs.Reading
import FieldSearch.Repository.Client

/-!
# What a client can read

A repository may answer with any bytes. This is the exact extent of what its client takes: bodies
that can be decoded, refs that are objects up to the first one marked as master, header values that
are ASCII texts, addresses that its network accepts, and errors that can be listed and written.
Anything else makes a call crash.
-/

namespace FieldSearch.Repository

open Text (Bytes)
open Transport

/-! ## Bodies -/

/-- A body that is no text, or that has a whole number with too many digits. -/
def IsGarbled (body : Bytes) : Prop :=
  Text.decodeJson? body = none ∨
    ∃ t, Text.decodeJson? body = some t ∧ Json.read t = .error .tooManyDigits

def IsHeader (value : Json) : Prop := ∃ t : Text, value = .text t ∧ ∀ c ∈ t, c.toNat < 128

theorem isHeader_text {t : Text} : IsHeader (.text t) ↔ ∀ c ∈ t, c.toNat < 128 := by
  simp [IsHeader]

theorem headerValue_isOk {value : Json} : (∃ t, headerValue value = .ok t) ↔ IsHeader value := by
  cases value with
  | text t =>
    rw [isHeader_text, headerValue]
    split
    · rename_i h
      exact iff_of_true ⟨t, rfl⟩ (by simpa using h)
    · rename_i h
      exact iff_of_false nofun (by simpa using h)
  | _ => simp [headerValue, IsHeader]

theorem headerEntries_isOk {entries : Entries Json} :
    (∃ headers, headerEntries entries = .ok headers) ↔ ∀ entry ∈ entries, IsHeader entry.2 := by
  induction entries with
  | nil => simp [headerEntries]
  | cons entry rest ih =>
    obtain ⟨name, value⟩ := entry
    rw [List.forall_mem_cons, ← ih, ← headerValue_isOk, headerEntries]
    cases headerValue value <;> cases headerEntries rest <;>
      simp [bind, Except.bind, pure, Except.pure]

theorem wire_isOk {α : Type} {c : Client α} {url : Text} {own : Entries Json} :
    (∃ w, c.wire url own = .ok w) ↔
      c.accepts url = true ∧ ∀ entry ∈ own, IsHeader entry.2 := by
  obtain ⟨defaults, hdefaults⟩ := headerEntries_isOk.mpr
    (show ∀ entry ∈ Client.defaults, IsHeader entry.2 by simp [Client.defaults, isHeader_text])
  rw [← headerEntries_isOk, Client.wire, Wire.make, mergeHeaders, hdefaults]
  cases c.accepts url <;> cases headerEntries own <;>
    simp [bind, Except.bind, pure, Except.pure]

/-! ## Descriptors -/

def IsMarked (ref : Json) : Prop :=
  ∃ mark, ref.member? "isMasterRef" = some mark ∧ mark.isTruthy = true

/-- Up to the first one that is marked as the master ref, all of them are objects. -/
def AreRefs (items : List Json) : Prop :=
  ∀ before item after, items = before ++ item :: after → (∀ ref ∈ before, ¬ IsMarked ref) →
    ∃ members, item = .object members

def RefsFit (descriptor : Entries Json) : Prop :=
  ∀ refs, Entries.get? "refs" descriptor = some refs → refs.isTruthy = true →
    ∃ items, refs = .array items ∧ AreRefs items

theorem areRefs_nil : AreRefs [] := by
  intro before item after h
  cases before <;> cases h

theorem areRefs_cons {item : Json} {rest : List Json} :
    AreRefs (item :: rest) ↔
      (∃ members, item = .object members) ∧ (¬ IsMarked item → AreRefs rest) := by
  constructor
  · intro h
    refine ⟨h [] item rest rfl nofun, fun hmark before item' after heq hbefore => ?_⟩
    refine h (item :: before) item' after (congrArg _ heq) ?_
    rw [List.forall_mem_cons]
    exact ⟨hmark, hbefore⟩
  · rintro ⟨hobject, hrest⟩ before item' after heq hbefore
    cases before with
    | nil =>
      cases heq
      exact hobject
    | cons first before =>
      cases heq
      rw [List.forall_mem_cons] at hbefore
      exact hrest hbefore.1 before item' after rfl hbefore.2

theorem isMarked_object {members : Entries Json} :
    IsMarked (.object members) ↔
      ((Entries.get? "isMasterRef" members).getD .null).isTruthy = true := by
  show (∃ mark, Entries.get? "isMasterRef" members = some mark ∧ mark.isTruthy = true) ↔ _
  generalize Entries.get? "isMasterRef" members = found
  cases found with
  | none => simp [Json.isTruthy]
  | some mark => simp

theorem masterRef?_isOk {items : List Json} :
    (∃ found, Client.masterRef? items = .ok found) ↔ AreRefs items := by
  induction items with
  | nil => simp [Client.masterRef?, areRefs_nil]
  | cons item rest ih =>
    rw [areRefs_cons, ← ih, Client.masterRef?]
    cases item with
    | object members =>
      rw [isMarked_object]
      simp only [Json.lookup, bind, Except.bind, pure, Except.pure]
      split
      · rename_i hmark
        exact iff_of_true ⟨_, rfl⟩ ⟨⟨members, rfl⟩, (absurd hmark ·)⟩
      · rename_i hmark
        exact ⟨fun h => ⟨⟨members, rfl⟩, fun _ => h⟩, fun h => h.2 hmark⟩
    | _ => simp [Json.lookup, bind, Except.bind]

theorem masterRef?_object {items : List Json} {ref : Json}
    (h : Client.masterRef? items = .ok (some ref)) : ∃ members, ref = .object members := by
  induction items with
  | nil => cases h
  | cons item rest ih =>
    rw [Client.masterRef?] at h
    cases item with
    | object members =>
      simp only [Json.lookup, bind, Except.bind, pure, Except.pure] at h
      split at h
      · cases h
        exact ⟨members, rfl⟩
      · exact ih h
    | _ => cases h

theorem refs_isOk {descriptor : Entries Json} :
    (∃ items, Client.refs descriptor = .ok items ∧ AreRefs items) ↔ RefsFit descriptor := by
  unfold RefsFit Client.refs
  generalize Entries.get? "refs" descriptor = found
  cases found with
  | none => simp [Json.isTruthy, areRefs_nil]
  | some refs =>
    by_cases htruthy : refs.isTruthy = true
    · cases refs with
      | array items => simp [htruthy, Json.elements]
      | text t =>
        -- a text has characters, which are no objects
        cases t with
        | nil => cases htruthy
        | cons c rest => simp [htruthy, Json.elements, areRefs_cons]
      | object members =>
        cases members with
        | nil => cases htruthy
        | cons entry rest => simp [htruthy, Json.elements, areRefs_cons]
      | _ => simp [htruthy, Json.elements]
    · simp [htruthy, areRefs_nil]

theorem masterReference_isOk {descriptor : Entries Json} :
    (∃ found, Client.masterReference descriptor = .ok found) ↔ RefsFit descriptor := by
  rw [← refs_isOk, Client.masterReference]
  cases Client.refs descriptor with
  | error f => simp [bind, Except.bind]
  | ok items =>
    simp only [Except.ok.injEq, exists_eq_left', ← masterRef?_isOk]
    cases hmaster : Client.masterRef? items with
    | error f => simp [bind, Except.bind, hmaster]
    | ok ref =>
      cases ref with
      | none => simp [bind, Except.bind, pure, Except.pure, hmaster]
      | some ref =>
        -- the ref that is found is an object, so it can be asked for its reference
        obtain ⟨members, rfl⟩ := masterRef?_object hmaster
        simp [bind, Except.bind, pure, Except.pure, Json.lookup, hmaster]

/-- The address of a request for this document is accepted, and the texts that it carries for this
descriptor can be written. -/
structure Client.Writable {α : Type} (c : Client α) (descriptor : Entries Json) (document : Text) :
    Prop where
  address : c.accepts (queryUrl c.endpoints.graphql document) = true
  reference : ∀ ref, masterReference descriptor = .ok (some ref) → IsHeader ref
  integration : ∀ ref, Entries.get? "integrationFieldRef" descriptor = some ref →
    ref.isTruthy = true → IsHeader ref
  token : ∀ t, c.token = some t → ∀ ch ∈ t, ch.toNat < 128

namespace Client

variable {α : Type} {c : Client α} {descriptor headers : Entries Json}

theorem requestHeaders_eq_ok (h : c.requestHeaders descriptor = .ok headers) :
    ∃ ref, masterReference descriptor = .ok (some ref) ∧
      headers = (("Prismic-ref" : Text), ref) :: integrationHeader descriptor ++
        tokenHeader c.token? := by
  unfold requestHeaders at h
  split at h
  · cases h
  · cases h
  · rename_i ref href
    cases h
    exact ⟨ref, href, rfl⟩

theorem descriptorCall_isOk :
    (∃ w, c.descriptorCall.wire = .ok w) ↔ c.accepts c.descriptorUrl = true := by
  rw [descriptorCall, wire_isOk]
  exact and_iff_left nofun

end Client

/-! ## Payloads -/

/-- The errors of a payload can be listed, and what is told of each of them can be written. -/
def ErrorsFit (payload : Entries Json) : Prop :=
  ∀ errors, Entries.get? "errors" payload = some errors → errors.isTruthy = true →
    ∃ parts, errors.elements = .ok parts ∧
      ∀ part ∈ parts, (Client.errorMessage part).isWritable = true

/-- A fault is a crash if a value did not have its shape or the call itself crashed. -/
def Fault.IsCrash {α : Type} : Fault α → Prop
  | .shape _ | .refused (.crash _) => True
  | _ => False

section

variable {α : Type}

theorem errorMessages_of_not_isTruthy {errors : Json} (h : errors.isTruthy = false) :
    (Client.errorMessages errors : Except (Fault α) (List Text)) = .ok [] := by
  rw [Client.errorMessages, h]
  rfl

theorem errorMessages_of_isTruthy {errors : Json} (h : errors.isTruthy = true) :
    (Client.errorMessages errors : Except (Fault α) (List Text)) =
      (errors.elements.mapError .shape >>= fun parts =>
        (parts.mapM fun e => (Client.errorMessage e).written).mapError fun c =>
          .refused (.crash c)) := by
  rw [Client.errorMessages, h]
  rfl

/-- The errors of a payload have messages exactly if they can be listed and each can be written. -/
theorem errorMessages_cases {errors : Json} (htruthy : errors.isTruthy = true) :
    ((∃ parts, errors.elements = .ok parts ∧
        ∀ part ∈ parts, (Client.errorMessage part).isWritable = true) ∧
      ∃ messages, (Client.errorMessages errors : Except (Fault α) (List Text)) = .ok messages) ∨
    (¬ ∃ parts, errors.elements = .ok parts ∧
        ∀ part ∈ parts, (Client.errorMessage part).isWritable = true) ∧
      ∃ fault : Fault α, fault.IsCrash ∧ Client.errorMessages errors = .error fault := by
  rw [errorMessages_of_isTruthy htruthy]
  cases helements : errors.elements with
  | error f =>
    refine .inr ⟨?_, .shape f, trivial, rfl⟩
    rintro ⟨parts, hparts, -⟩
    cases hparts
  | ok parts =>
    cases hmessages : parts.mapM fun e => (Client.errorMessage e).written with
    | ok messages =>
      refine .inl ⟨⟨parts, rfl, fun part hpart => ?_⟩, messages, ?_⟩
      · obtain ⟨message, -, hmessage⟩ := (mem_of_mapM_eq_ok hmessages).1 part hpart
        exact Json.isWritable_of_written hmessage
      · exact congrArg (Except.mapError _) hmessages
    | error c =>
      refine .inr ⟨?_, .refused (.crash c), trivial, congrArg (Except.mapError _) hmessages⟩
      rintro ⟨parts', hparts', hall⟩
      cases hparts'
      obtain ⟨part, hpart, herror⟩ := mapM_eq_error hmessages
      rw [Json.written_of_isWritable (hall part hpart)] at herror
      cases herror

theorem isCrash_of_errorMessages {errors : Json} {fault : Fault α}
    (h : Client.errorMessages errors = .error fault) : fault.IsCrash := by
  cases htruthy : errors.isTruthy with
  | false =>
    rw [errorMessages_of_not_isTruthy htruthy] at h
    cases h
  | true =>
    rcases errorMessages_cases (α := α) htruthy with
      ⟨-, messages, hmessages⟩ | ⟨-, other, hcrash, hother⟩
    · rw [h] at hmessages
      cases hmessages
    · rw [h] at hother
      cases hother
      exact hcrash

end

end FieldSearch.Repository
