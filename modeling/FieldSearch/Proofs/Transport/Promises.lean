import FieldSearch.Proofs.Transport.Bodies
import FieldSearch.Proofs.Transport.Retrying

/-!
# What a call promises

A call is promised the outcome of its last attempt, told by the class of the status: a body, an
unavailable service, a refusal, a rate limit, or no connection. All of it is kept, except for bodies
that are misread: they come back as a crash, or as a value that is not theirs. A body in UTF-8 comes
with the text that the network makes of it, which depends on its headers.
-/

namespace FieldSearch.Transport

inductive Delivery where
  | failed (message : Text)
  | answered (status : Nat) (reason : Option Text) (headers : Entries Text) (body text : Text)

namespace Delivery

def reply : Delivery → Reply Float
  | failed message => .failed message
  | answered status reason headers body text =>
    .answered (.ofParts status reason headers (Text.encodeUtf8 body) text)

def HasStatus : Delivery → Prop
  | failed _ => True
  | answered status .. => 100 ≤ status ∧ status ≤ 599

/-- The body of a success is expected to be Json, and is misread. -/
def IsMisread (expectJson : Bool) : Delivery → Prop
  | failed _ => False
  | answered status _ _ body _ =>
    expectJson = true ∧ 200 ≤ status ∧ status ≤ 299 ∧ Misread body

end Delivery

/-- The outcomes that a call to a service is promised for its last attempt. -/
inductive Promised (service : Text) (expectJson : Bool) (attempt : Nat) :
    Delivery → Except Failure Json → Prop
  | value {status reason headers body text value} : expectJson = true → 200 ≤ status →
      status ≤ 299 → Json.read (Text.withoutMark body) = .ok value →
      Promised service expectJson attempt (.answered status reason headers body text) (.ok value)
  | notJson {status reason headers body text} : expectJson = true → 200 ≤ status → status ≤ 299 →
      Json.read (Text.withoutMark body) = .error .malformed →
      Promised service expectJson attempt (.answered status reason headers body text)
        (.error (.ofCause (.unreadable "Invalid JSON response" (some service))))
  | text {status reason headers body text} : expectJson = false → 200 ≤ status → status ≤ 299 →
      Promised service expectJson attempt (.answered status reason headers body text)
        (.ok (.text text))
  | unavailable {status reason headers body text} (message : Text) : 500 ≤ status → status ≤ 599 →
      Promised service expectJson attempt (.answered status reason headers body text)
        (.error (.ofCause (.unavailable service message)))
  | refused {status : Nat} {reason headers body text} (message : Text) : status ≠ 429 →
      status < 200 ∨ 300 ≤ status → status < 500 →
      Promised service expectJson attempt (.answered status reason headers body text)
        (.error (.ofCause (.backend message (some status) (.array []))))
  | rateLimited {status reason headers body text} (message : Text) : status = 429 →
      Promised service expectJson attempt (.answered status reason headers body text)
        (.error (.ofCause (.rateLimited message
          ((Delivery.answered status reason headers body text).reply.pause attempt))))
  | unreachable {cause : Text} (message : Text) :
      Promised service expectJson attempt (.failed cause) (.error (.ofCause (.network message)))

/-! ## Conclusions by the class of the status -/

namespace Reply

variable {α : Type} [Duration α] {a : Answer α} (expectJson : Bool) (attempt : Nat)

theorem conclusion_of_limited (h : a.status = 429) :
    (answered a).conclusion expectJson attempt =
      .error (.rateLimited ((answered a).pause attempt)) :=
  if_pos h

theorem conclusion_of_success (hlow : 200 ≤ a.status) (hhigh : a.status ≤ 299) :
    (answered a).conclusion expectJson attempt = Channel.bodyOutcome expectJson a := by
  have hsuccess : a.isSuccess = true := by
    simp only [Answer.isSuccess, Bool.and_eq_true, decide_eq_true_eq]
    omega
  rw [conclusion, if_neg (by omega), if_pos hsuccess]

theorem conclusion_of_unavailable (h : 500 ≤ a.status) :
    (answered a).conclusion expectJson attempt = .error (.unavailable a.status a.reason) := by
  have hsuccess : ¬ a.isSuccess = true := by
    simp only [Answer.isSuccess, Bool.and_eq_true, decide_eq_true_eq]
    omega
  rw [conclusion, if_neg (by omega), if_neg hsuccess, if_pos h]

theorem conclusion_of_refused (h429 : a.status ≠ 429) (hother : a.status < 200 ∨ 300 ≤ a.status)
    (h : a.status < 500) :
    (answered a).conclusion expectJson attempt = .error (.refused a.status a.reason) := by
  have hsuccess : ¬ a.isSuccess = true := by
    simp only [Answer.isSuccess, Bool.and_eq_true, decide_eq_true_eq]
    omega
  rw [conclusion, if_neg h429, if_neg hsuccess, if_neg (Nat.not_le.mpr h)]

end Reply

/-! ## Promises for a body -/

theorem Answer.ofParts_body (status : Nat) (reason : Option Text) (headers : Entries Text)
    (body : Text.Bytes) (text : Text) : (ofParts status reason headers body text).body = body :=
  rfl

section

variable {service : Text} {attempt status : Nat} {reason : Option Text} {headers : Entries Text}
  {body text : Text}

theorem promised_json_iff (hlow : 200 ≤ status) (hhigh : status ≤ 299) :
    Promised service true attempt (.answered status reason headers body text)
      ((Channel.bodyOutcome true
        (.ofParts status reason headers (Text.encodeUtf8 body) text)).mapError
          (Refusal.failure service)) ↔
      ¬ Misread body := by
  unfold Channel.bodyOutcome
  rw [Answer.read_json, Answer.ofParts_body]
  constructor
  · intro hpromised hmisread
    obtain ⟨hdigits, hbody⟩ | ⟨hmalformed, hbody⟩ := jsonBody_of_misread hmisread
    · rw [hbody] at hpromised
      cases hpromised
    · cases hjson : jsonBody (Text.encodeUtf8 body) with
      | ok value =>
        rw [hjson] at hpromised
        cases hpromised with
        | value _ _ _ hvalue => cases hmalformed.symm.trans hvalue
        | text hexpect => cases hexpect
      | error fault =>
        cases fault with
        | notJson => exact hbody hjson
        | crash c =>
          rw [hjson] at hpromised
          cases hpromised
  · intro hread
    obtain ⟨value, hvalue, hbody⟩ | ⟨hmalformed, hbody⟩ := jsonBody_of_not_misread hread
    · rw [hbody]
      exact .value rfl hlow hhigh hvalue
    · rw [hbody]
      exact .notJson rfl hlow hhigh hmalformed

theorem promised_text (hlow : 200 ≤ status) (hhigh : status ≤ 299) :
    Promised service false attempt (.answered status reason headers body text)
      ((Channel.bodyOutcome false
        (.ofParts status reason headers (Text.encodeUtf8 body) text)).mapError
          (Refusal.failure service)) := by
  exact .text rfl hlow hhigh

end

theorem promised_body_iff (service : Text) (expectJson : Bool) (attempt : Nat) {status : Nat}
    (reason : Option Text) (headers : Entries Text) (body text : Text) (hlow : 200 ≤ status)
    (hhigh : status ≤ 299) :
    Promised service expectJson attempt (.answered status reason headers body text)
      ((Channel.bodyOutcome expectJson
        (.ofParts status reason headers (Text.encodeUtf8 body) text)).mapError
          (Refusal.failure service)) ↔
      ¬ (Delivery.answered status reason headers body text).IsMisread expectJson := by
  cases expectJson with
  | true =>
    rw [promised_json_iff hlow hhigh]
    simp [Delivery.IsMisread, hlow, hhigh]
  | false => exact iff_of_true (promised_text hlow hhigh) (fun h => nomatch h.1)

/-! ## Promises for a reply -/

theorem promised_conclusion_iff (service : Text) (expectJson : Bool) (attempt : Nat) {d : Delivery}
    (hstatus : d.HasStatus) :
    Promised service expectJson attempt d
      ((d.reply.conclusion expectJson attempt).mapError (Refusal.failure service)) ↔
      ¬ d.IsMisread expectJson := by
  cases d with
  | failed message => exact iff_of_true (.unreachable _) (fun h => h)
  | answered status reason headers body text =>
    have hread : ¬ (200 ≤ status ∧ status ≤ 299) →
        ¬ (Delivery.answered status reason headers body text).IsMisread expectJson :=
      fun hnot h => hnot ⟨h.2.1, h.2.2.1⟩
    obtain ⟨-, hhigh⟩ := hstatus
    by_cases h429 : status = 429
    · rw [Delivery.reply, Reply.conclusion_of_limited expectJson attempt h429]
      exact iff_of_true (.rateLimited _ h429) (hread (by omega))
    · by_cases hsuccess : 200 ≤ status ∧ status ≤ 299
      · rw [Delivery.reply, Reply.conclusion_of_success expectJson attempt hsuccess.1 hsuccess.2]
        exact promised_body_iff service expectJson attempt reason headers body text hsuccess.1
          hsuccess.2
      · by_cases hserver : 500 ≤ status
        · rw [Delivery.reply, Reply.conclusion_of_unavailable expectJson attempt hserver]
          exact iff_of_true (.unavailable _ hserver hhigh) (hread hsuccess)
        · have hother : status < 200 ∨ 300 ≤ status := by omega
          have hclient : status < 500 := Nat.lt_of_not_le hserver
          rw [Delivery.reply, Reply.conclusion_of_refused expectJson attempt h429 hother hclient]
          exact iff_of_true (.refused _ h429 hother hclient) (hread hsuccess)

/-! ## A whole call -/

structure Exchange where
  made : Float
  answered : Float
  delivery : Delivery

def attempts (script : Nat → Exchange) (n : Nat) : Attempt Float :=
  ⟨(script n).made, (script n).answered, (script n).delivery.reply⟩

namespace Channel

/-- A call without an interval to keep sends at most four requests. All attempts before its last one
were let in and asked for another one, and it slept after each of them. It ends with a rejection by
the breaker, or else with what it is promised for the last reply, exactly if that is not misread. -/
theorem call_promised_iff (service : Text) (c : Channel Float) (call : Call) {w : Wire}
    (script : Nat → Exchange) (hinterval : c.interval = Duration.ofNat 0)
    (hclock : ∀ n, NotBefore (c.lastMade (attempts script) n) (script n).made)
    (hwire : call.wire = .ok w) (hstatus : ∀ n, (script n).delivery.HasStatus) {m : Nat}
    (hm : 4 ≤ m) :
    let t := Trace.run c call (attempts script) m
    ∃ n outcome, n ≤ 3 ∧
      (∀ i < n, (c.admission (attempts script) i).2 = none ∧
        (script i).delivery.reply.isTransient = true) ∧
      t.progress = .finished outcome ∧
      t.slept = (List.range n).map (fun i => (script i).delivery.reply.pause i) ∧
      ((∃ why, (c.admission (attempts script) n).2 = some why ∧
          t.sent = List.replicate n w ∧
          t.channel.breaker = (c.admission (attempts script) n).1 ∧
          outcome.mapError (Refusal.failure service) = .error (.ofCause (.rateLimited why.message
            (t.channel.breaker.retryAfter why)))) ∨
        (c.admission (attempts script) n).2 = none ∧
          ((script n).delivery.reply.isTransient = true → n = 3) ∧
          t.sent = List.replicate (n + 1) w ∧
          t.channel.breaker = c.breakerAfter (attempts script) (n + 1) ∧
          (Promised service call.expectJson n (script n).delivery
              (outcome.mapError (Refusal.failure service)) ↔
            ¬ (script n).delivery.IsMisread call.expectJson)) := by
  obtain ⟨n, ⟨hfew, hbefore⟩, hlast⟩ := Trace.ends_run hinterval hclock hwire hm
  obtain ⟨why, hrejected, hrun⟩ | ⟨hadmitted, hlast, hrun⟩ := hlast
  · rw [hrun]
    exact ⟨n, _, hfew, hbefore, rfl, rfl, .inl ⟨why, hrejected, rfl, rfl, rfl⟩⟩
  · rw [hrun]
    exact ⟨n, _, hfew, hbefore, rfl, rfl, .inr ⟨hadmitted, hlast, rfl, rfl,
      promised_conclusion_iff service call.expectJson n (hstatus n)⟩⟩

section

instance (earlier later : Float) : Decidable (NotBefore earlier later) :=
  inferInstanceAs (Decidable (¬ _))

def unhurried : Channel Float := fresh 0 defaultBreaker

def jsonCall : Call := { wire := .ok ⟨"https://api.test/a", []⟩ }

/-- A rate limit that names its time, a lost connection, and then an empty object. -/
def stumbling : Nat → Exchange
  | 0 => ⟨1000, 1000, .answered 429 none [("Retry-After", "7")] [] []⟩
  | 1 => ⟨1007, 1007, .failed "reset"⟩
  | _ => ⟨1011, 1011, .answered 200 none [] "\x7b\x7d" "\x7b\x7d"⟩

theorem call_promised_stumbling :
    (∀ n, NotBefore (unhurried.lastMade (attempts stumbling) n) (stumbling n).made) ∧
      (∀ n, (stumbling n).delivery.HasStatus) ∧
      ∃ outcome,
        (Trace.run unhurried jsonCall (attempts stumbling) 4).progress = .finished outcome ∧
        (Trace.run unhurried jsonCall (attempts stumbling) 4).slept = [7, 4] ∧
        (Trace.run unhurried jsonCall (attempts stumbling) 4).sent.length = 3 ∧
        Promised "API" true 2 (stumbling 2).delivery
          (outcome.mapError (Refusal.failure "API")) := by
  have hclock : ∀ n, NotBefore (unhurried.lastMade (attempts stumbling) n) (stumbling n).made := by
    intro n
    match n with
    | 0 | 1 | 2 => decide +kernel
    | n + 3 =>
      show NotBefore (1011 : Float) 1011
      decide +kernel
  have hstatus : ∀ n, (stumbling n).delivery.HasStatus := by
    intro n
    match n with
    | 0 | 1 | n + 2 => simp [stumbling, Delivery.HasStatus]
  have hread : ¬ (stumbling 2).delivery.IsMisread true := by
    rintro ⟨-, -, -, ⟨⟨hzero, -⟩, -⟩ | hdigits⟩
    · revert hzero
      decide
    · cases (rfl : Json.read (Text.withoutMark "\x7b\x7d") = .ok (.object [])).symm.trans hdigits
  have hslept : (Trace.run unhurried jsonCall (attempts stumbling) 4).slept = [7, 4] := by
    decide +kernel
  have hsent : (Trace.run unhurried jsonCall (attempts stumbling) 4).sent.length = 3 := by
    decide +kernel
  obtain ⟨n, outcome, -, -, hprogress, hpauses, hlast⟩ :=
    call_promised_iff "API" unhurried jsonCall stumbling rfl hclock rfl hstatus (Nat.le_refl 4)
  obtain rfl : 2 = n := by simpa [hslept] using congrArg List.length hpauses
  obtain ⟨why, -, hnone, -⟩ | ⟨-, -, -, -, hpromised⟩ := hlast
  · rw [hnone] at hsent
    cases hsent
  · exact ⟨hclock, hstatus, outcome, hprogress, hslept, hsent, hpromised.mpr hread⟩

def nulBody : Delivery := .answered 200 none [] "\x00abcd" "\x00abcd"

/-- A body that is no Json crashes the call. -/
theorem nul_body_not_promised :
    ∃ outcome, (Trace.run unhurried jsonCall (attempts fun _ => ⟨1000, 1000, nulBody⟩) 4).progress =
        .finished outcome ∧
      ∀ service, outcome.mapError (Refusal.failure service) = .error (.crash .undecodable) ∧
        ¬ Promised service true 0 nulBody (outcome.mapError (Refusal.failure service)) := by
  have hclock : ∀ n, NotBefore
      (unhurried.lastMade (attempts fun _ => ⟨1000, 1000, nulBody⟩) n) (1000 : Float) := by
    intro n
    match n with
    | 0 => decide +kernel
    | n + 1 =>
      show NotBefore (1000 : Float) 1000
      decide +kernel
  have hcrash : bodyOutcome true
        (.ofParts 200 none [] (Text.encodeUtf8 "\x00abcd") "\x00abcd") =
      .error (.crash .undecodable) := by
    rfl
  have hwire : jsonCall.wire = .ok ⟨"https://api.test/a", []⟩ := rfl
  obtain ⟨n, ⟨-, hbefore⟩, hlast⟩ := Trace.ends_run rfl hclock hwire (Nat.le_refl 4)
  cases n with
  | succ n => cases (hbefore 0 (Nat.zero_lt_succ n)).2
  | zero =>
    obtain ⟨why, hrejected, -⟩ | ⟨-, -, hrun⟩ := hlast
    · cases hrejected
    · rw [hrun]
      refine ⟨_, rfl, ?_⟩
      intro service
      have houtcome : (Reply.conclusion true 0 nulBody.reply).mapError (Refusal.failure service) =
          .error (.crash .undecodable) := by
        rw [nulBody, Delivery.reply,
          Reply.conclusion_of_success true 0 (Nat.le_refl 200) (Nat.le_add_right 200 99)]
        exact congrArg (Except.mapError (Refusal.failure service)) hcrash
      refine ⟨houtcome, ?_⟩
      intro hpromised
      have hcrashed : Promised service true 0 nulBody (.error (.crash .undecodable)) :=
        houtcome ▸ hpromised
      cases hcrashed

end

end Channel

end FieldSearch.Transport
