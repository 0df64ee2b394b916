import WallyIo.Dispatch.ClientSession
import WallyIo.Library.Machine

/-!
# The receiver's side of a QoS 2 exchange

A session with a live connection under every order of events.  Between the first
PUBLISH with quality of service 2 under some identifier and the PUBREL for it, the
session takes every packet with this identifier for a copy, unless it has given up
waiting for the PUBREL.

Main results:

- Theorem {lit}`Stored.of_run`: the publication stays stored while its timer handlers
  do not exhaust the retries.
- Theorem {lit}`forwarded_once`: then exactly one packet is handed on.
-/

namespace WallyIo
namespace Dispatch
namespace Qos2Receiver

open Protocol Library

/-! ## The session as a machine -/

/-- What happens to a session. -/
inductive Event
  /-- The client sends a PUBLISH. -/
  | clientSentPublish (publish : Publish)
  /-- The client sends a PUBREL. -/
  | clientReleasedPublish (packetIdentifier : UInt16)
  /-- The timer of an incoming publication elapses, which queues its handler. -/
  | rxTimerElapses (packetIdentifier : UInt16)
  /-- A queued handler of the timer of an incoming publication runs. -/
  | rxTimeout (packetIdentifier : UInt16)
  /-- The session manager publishes a packet to the client. -/
  | publish (publish : Publish) (maximumQos : QoS)
  /-- The client sends PUBACK, PUBREC or PUBCOMP. -/
  | response (ack : PublishAck)
  /-- The timer of an outgoing publication elapses, which queues its handler. -/
  | txTimerElapses (packetIdentifier : UInt16)
  /-- A queued handler of the timer of an outgoing publication runs. -/
  | txTimeout (packetIdentifier : UInt16)
deriving DecidableEq, Repr

/-- How a session answers an event. -/
structure Answer where
  calls : List SenderCall
  /-- The packet that the session manager is asked to publish. -/
  forwarded : Option Publish
deriving DecidableEq, Repr

/-- An answer that hands nothing on. -/
def quiet (r : List SenderCall × MqttClientSession) : Answer × MqttClientSession :=
  (⟨r.1, none⟩, r.2)

/-- One event of a session whose connection is alive. -/
def step (s : MqttClientSession) :
    Event → Option (Except Fault (Answer × MqttClientSession))
  | .clientSentPublish p => some <|
      (s.clientSentPublish true p).map fun (dispatchPublish, calls, s) =>
        (⟨calls, if dispatchPublish then some p else none⟩, s)
  | .clientReleasedPublish i => some ((s.clientReleasedPublish true i).map quiet)
  | .rxTimerElapses i => (s.rxTimerElapses i).map fun s => .ok (⟨[], none⟩, s)
  | .rxTimeout i => (s.rxTimeout i).map (Except.map quiet)
  | .publish p maximumQos => some <|
      (s.publish true p maximumQos).map fun (calls, _, s) => (⟨calls, none⟩, s)
  | .response ack => some ((s.responseReceived true ack).map quiet)
  | .txTimerElapses i => (s.txTimerElapses i).map fun s => .ok (⟨[], none⟩, s)
  | .txTimeout i => (s.txTimeout i).map (Except.map quiet)

/-- The machine of one session. -/
def session : Machine (Option MqttClientSession) Event (Except Fault Answer) :=
  Machine.ofFallible step

/-- Executed steps of the machine. -/
abbrev SessionStep := Step (Option MqttClientSession) Event (Except Fault Answer)

/-- The packet that a step hands on. -/
def forwarded (x : SessionStep) : Option Publish :=
  match x.output with
  | .ok answer => answer.forwarded
  | .error _ => none

/-- Whether a step hands on a packet with the given identifier. -/
def forwards (i : UInt16) (x : SessionStep) : Bool :=
  (forwarded x).any fun p => p.packetIdentifier == i

/-- How often the handler of the timer of an incoming publication has run. -/
def timeouts (i : UInt16) (steps : List SessionStep) : Nat :=
  steps.countP fun x => x.event == .rxTimeout i

/-! ## Copies are ignored -/

/-- The publication is stored and has counted its timeouts. -/
structure Waits (i : UInt16) (maxRetries handled : Nat) (r : RxPublication) : Prop where
  state_eq : r.state = .waitingForRel
  publishId_eq : r.publishId = i
  maxRetries_eq : r.maxRetries = maxRetries
  retryCount_eq : maxRetries < 65535 → r.retryCount.toNat = handled

/-- The session has failed, or the publication is stored. -/
def Stored (i : UInt16) (maxRetries handled : Nat) : Option MqttClientSession → Prop
  | none => True
  | some s => ∃ r, s.rxInFlightPublications.publications.lookup i = some r ∧
      Waits i maxRetries handled r

/-- The retries allow for the given number of timeouts.  The counter of retries has
16 bits, so that a large limit is never reached. -/
def Allowed (maxRetries handled : Nat) : Prop := handled ≤ maxRetries ∨ 65535 ≤ maxRetries

instance (maxRetries handled : Nat) : Decidable (Allowed maxRetries handled) :=
  inferInstanceAs (Decidable (_ ∨ _))

section Steps

variable {i : UInt16} {maxRetries handled : Nat}

/-- A waiting publication retries if the retries allow for one more timeout. -/
theorem Waits.mayRetry {r : RxPublication} (h : Waits i maxRetries handled r)
    (hallowed : Allowed maxRetries (handled + 1)) : r.mayRetry = true := by
  have hlt : (r.retryCount + 1).toNat < 65536 := (r.retryCount + 1).toNat_lt
  have hmax := h.maxRetries_eq
  simp only [RxPublication.mayRetry, decide_eq_true_eq, hmax]
  by_cases hbig : maxRetries < 65535
  · have hcount := h.retryCount_eq hbig
    have hsucc : (r.retryCount + 1).toNat = handled + 1 := by
      rw [UInt16.toNat_add, hcount]
      rcases hallowed with hle | hle <;> simp only [UInt16.reduceToNat] <;> omega
    rcases hallowed with hle | hle <;> omega
  · omega

/-- A publication stays stored when the session changes other entries only. -/
theorem Stored.of_lookup {s s' : MqttClientSession}
    (h : Stored i maxRetries handled (some s))
    (hsame : s'.rxInFlightPublications.publications.lookup i =
      s.rxInFlightPublications.publications.lookup i) :
    Stored i maxRetries handled (some s') := by
  obtain ⟨r, hr, hwaits⟩ := h
  exact ⟨r, hsame.trans hr, hwaits⟩

/-- A waiting publication retries, which counts. -/
theorem Stored.rxTimeout {s s' : MqttClientSession} {calls : List SenderCall}
    (h : Stored i maxRetries handled (some s)) (hallowed : Allowed maxRetries (handled + 1))
    (htimeout : s.rxInFlightPublications.timeout i =
      some (.ok (calls, s'.rxInFlightPublications))) :
    Stored i maxRetries (handled + 1) (some s') := by
  obtain ⟨r, hr, hwaits⟩ := h
  have hmay : r.mayRetry = true := hwaits.mayRetry hallowed
  rcases RxInFlightPublications.timeout_cases hr hwaits.state_eq htimeout with
    ⟨-, r', hstate, hid, hcount, hmax, hafter⟩ | ⟨hnot, -⟩
  · injection hafter with hafter
    injection hafter with _ hafter
    refine ⟨r', ?_, hstate, hid.trans hwaits.publishId_eq, hmax.trans hwaits.maxRetries_eq, ?_⟩
    · rw [hafter]
      exact Table.lookup_insert_self _ _ _
    intro hbig
    rw [hcount, UInt16.toNat_add, hwaits.retryCount_eq hbig]
    have hlt := r.retryCount.toNat_lt
    simp only [Allowed] at hallowed
    simp only [UInt16.reduceToNat]
    rcases hallowed with hle | hle <;> omega
  · rw [hmay] at hnot
    cases hnot

/-- The elapsed timer of a publication leaves it stored. -/
theorem Stored.rxTimerElapses {s s' : MqttClientSession}
    (h : Stored i maxRetries handled (some s))
    (helapses : s.rxInFlightPublications.timerElapses i = some s'.rxInFlightPublications) :
    Stored i maxRetries handled (some s') := by
  obtain ⟨r, hr, hwaits⟩ := h
  obtain ⟨p, timer, hp, hafter⟩ := RxInFlightPublications.timerElapses_cases helapses
  rw [hr] at hp
  cases hp
  refine ⟨{ r with retryOnTimeout := timer }, ?_, ?_⟩
  · rw [hafter]
    exact Table.lookup_insert_self _ _ _
  · exact ⟨hwaits.state_eq, hwaits.publishId_eq, hwaits.maxRetries_eq, hwaits.retryCount_eq⟩

/-- A copy of the publication leaves it stored and is not handed on. -/
theorem Stored.clientSentPublish {s s' : MqttClientSession} {p : Publish} {b : Bool}
    {calls : List SenderCall} (h : Stored p.packetIdentifier maxRetries handled (some s))
    (hsent : s.rxInFlightPublications.clientSentPublish true p =
      .ok (b, calls, s'.rxInFlightPublications)) :
    Stored p.packetIdentifier maxRetries handled (some s') ∧ b = false := by
  obtain ⟨r, hr, hwaits⟩ := h
  rw [RxInFlightPublications.clientSentPublish_duplicate hr] at hsent
  injection hsent with hsent
  injection hsent with hb hsent
  injection hsent with _ hafter
  exact ⟨⟨r, by rw [← hafter]; exact hr, hwaits⟩, hb.symm⟩

variable (i) in
/-- What a step does to the publication received under an identifier. -/
inductive RxEffect (s : MqttClientSession) : Event → Answer → MqttClientSession → Prop
  /-- The step is about something else. -/
  | elsewhere {e : Event} {answer : Answer} {s' : MqttClientSession} (hne : e ≠ .rxTimeout i)
      (hsame : s'.rxInFlightPublications.publications.lookup i =
        s.rxInFlightPublications.publications.lookup i)
      (hforwarded : ∀ p, answer.forwarded = some p → p.packetIdentifier ≠ i) :
      RxEffect s e answer s'
  | sent {p : Publish} {b : Bool} {calls : List SenderCall} {s' : MqttClientSession}
      (hi : p.packetIdentifier = i)
      (h : s.rxInFlightPublications.clientSentPublish true p =
        .ok (b, calls, s'.rxInFlightPublications)) :
      RxEffect s (.clientSentPublish p) ⟨calls, if b then some p else none⟩ s'
  | released {answer : Answer} {s' : MqttClientSession} :
      RxEffect s (.clientReleasedPublish i) answer s'
  | elapsed {s' : MqttClientSession}
      (h : s.rxInFlightPublications.timerElapses i = some s'.rxInFlightPublications) :
      RxEffect s (.rxTimerElapses i) ⟨[], none⟩ s'
  | timeout {calls : List SenderCall} {s' : MqttClientSession}
      (h : s.rxInFlightPublications.timeout i =
        some (.ok (calls, s'.rxInFlightPublications))) :
      RxEffect s (.rxTimeout i) ⟨calls, none⟩ s'

/-- A step that concerns outgoing publications only. -/
theorem RxEffect.outgoing {s s' : MqttClientSession} {e : Event} (calls : List SenderCall)
    (hne : e ≠ .rxTimeout i) (h : s'.rxInFlightPublications = s.rxInFlightPublications) :
    RxEffect i s e ⟨calls, none⟩ s' :=
  .elsewhere hne (by rw [h]) (fun _ hnone => by cases hnone)

/-- Every step that does not fail has one of these effects. -/
theorem effect_of_step {s s' : MqttClientSession} {e : Event} {answer : Answer}
    (h : step s e = some (.ok (answer, s'))) : RxEffect i s e answer s' := by
  cases e with
  | clientSentPublish p =>
      rcases map_eq_ok_iff.mp (Option.some.inj h) with ⟨⟨b, calls, s''⟩, hsent, hresult⟩
      cases hresult
      rcases MqttClientSession.clientSentPublish_eq_ok_iff.mp hsent with ⟨rx, hrx, rfl⟩
      by_cases hi : p.packetIdentifier = i
      · exact .sent hi hrx
      · have hframe := RxInFlightPublications.clientSentPublish_frame hrx (Ne.symm hi)
        refine .elsewhere (fun he => by cases he) hframe ?_
        intro q hq
        cases b with
        | false => cases hq
        | true =>
            cases hq
            exact hi
  | clientReleasedPublish j =>
      rcases map_eq_ok_iff.mp (Option.some.inj h) with ⟨⟨calls, s''⟩, hreleased, hresult⟩
      cases hresult
      rcases MqttClientSession.clientReleasedPublish_eq_ok_iff.mp hreleased with ⟨rx, hrx, rfl⟩
      by_cases hij : i = j
      · subst hij
        exact .released
      · have hframe := RxInFlightPublications.clientSentPubrel_frame hrx hij
        exact .elsewhere (fun he => by cases he) hframe (fun _ hnone => by cases hnone)
  | rxTimerElapses j =>
      rcases Option.map_eq_some_iff.mp h with ⟨s'', helapses, hresult⟩
      cases hresult
      rcases MqttClientSession.rxTimerElapses_eq_some_iff.mp helapses with ⟨rx, hrx, rfl⟩
      by_cases hij : i = j
      · subst hij
        exact .elapsed hrx
      · obtain ⟨p, timer, hp, rfl⟩ := RxInFlightPublications.timerElapses_cases hrx
        exact .elsewhere (fun he => by cases he) (Table.lookup_insert_of_ne _ _ hij)
          (fun _ hnone => by cases hnone)
  | rxTimeout j =>
      rcases Option.map_eq_some_iff.mp h with ⟨result, htimeout, hresult⟩
      rcases map_eq_ok_iff.mp hresult with ⟨⟨calls, s''⟩, rfl, hanswer⟩
      cases hanswer
      rcases MqttClientSession.rxTimeout_eq_ok_iff.mp htimeout with ⟨rx, hrx, rfl⟩
      by_cases hij : i = j
      · subst hij
        exact .timeout hrx
      · have hframe := RxInFlightPublications.timeout_frame hrx hij
        refine .elsewhere ?_ hframe (fun _ hnone => by cases hnone)
        intro he
        cases he
        exact hij rfl
  | publish p maximumQos =>
      rcases map_eq_ok_iff.mp (Option.some.inj h) with ⟨⟨calls, p', s''⟩, hpublish, hresult⟩
      cases hresult
      exact .outgoing calls (fun he => by cases he) (MqttClientSession.publish_frame hpublish)
  | response ack =>
      rcases map_eq_ok_iff.mp (Option.some.inj h) with ⟨⟨calls, s''⟩, hresponse, hresult⟩
      cases hresult
      exact .outgoing calls (fun he => by cases he)
        (MqttClientSession.responseReceived_frame hresponse)
  | txTimerElapses j =>
      rcases Option.map_eq_some_iff.mp h with ⟨s'', helapses, hresult⟩
      cases hresult
      exact .outgoing [] (fun he => by cases he) (MqttClientSession.txTimerElapses_frame helapses)
  | txTimeout j =>
      rcases Option.map_eq_some_iff.mp h with ⟨result, htimeout, hresult⟩
      rcases map_eq_ok_iff.mp hresult with ⟨⟨calls, s''⟩, rfl, hanswer⟩
      cases hanswer
      exact .outgoing calls (fun he => by cases he) (MqttClientSession.txTimeout_frame htimeout)

/-- A step of a session in which the publication under {lit}`i` waits for a PUBREL. -/
theorem Stored.step {s : MqttClientSession} {e : Event} {o : Except Fault Answer}
    {t : Option MqttClientSession} (h : Stored i maxRetries handled (some s))
    (hstep : session.step (some s) e = some (o, t))
    (hrelease : e ≠ .clientReleasedPublish i)
    (hallowed : e = .rxTimeout i → Allowed maxRetries (handled + 1)) :
    Stored i maxRetries (handled + if e = .rxTimeout i then 1 else 0) t ∧
      forwards i ⟨some s, e, o, t⟩ = false := by
  rcases Machine.ofFallible_step_some hstep with ⟨f, -, rfl, rfl⟩ | ⟨answer, s', hf, rfl, rfl⟩
  · exact ⟨trivial, rfl⟩
  cases effect_of_step (i := i) hf with
  | elsewhere hne hsame hforwarded =>
      rw [if_neg hne, Nat.add_zero]
      refine ⟨h.of_lookup hsame, ?_⟩
      cases hanswer : answer.forwarded with
      | none => simp [forwards, forwarded, hanswer]
      | some p => simp [forwards, forwarded, hanswer, hforwarded p hanswer]
  | sent hi hsent =>
      subst hi
      rcases h.clientSentPublish hsent with ⟨hstored, rfl⟩
      exact ⟨hstored, rfl⟩
  | released => exact absurd rfl hrelease
  | elapsed helapses => exact ⟨h.rxTimerElapses helapses, rfl⟩
  | timeout htimeout =>
      rw [if_pos rfl]
      exact ⟨h.rxTimeout (hallowed rfl) htimeout, rfl⟩

/-- One more timeout needs one more retry. -/
theorem Allowed.of_le {handled' : Nat} (h : Allowed maxRetries handled')
    (hle : handled ≤ handled') : Allowed maxRetries handled := by
  rcases h with h | h
  · exact Or.inl (Nat.le_trans hle h)
  · exact Or.inr h

/-- The publication stays stored and no packet with its identifier is handed on, as
long as its timer handlers do not exhaust the retries. -/
theorem Stored.of_run {s : Option MqttClientSession} (h : Stored i maxRetries 0 s)
    {steps : List SessionStep} {t : Option MqttClientSession} (hrun : session.Run s steps t)
    (hrelease : ∀ x ∈ steps, x.event ≠ .clientReleasedPublish i)
    (hallowed : Allowed maxRetries (timeouts i steps)) :
    Stored i maxRetries (timeouts i steps) t ∧ ∀ x ∈ steps, forwards i x = false := by
  have hinv := hrun.history_invariant (fun x => x.event ≠ .clientReleasedPublish i)
    (fun pre u => Allowed maxRetries (timeouts i pre) →
      Stored i maxRetries (timeouts i pre) u ∧ ∀ x ∈ pre, forwards i x = false)
    (fun _ => ⟨h, by simp⟩) (by
      intro pre u e o v _ ih hstep hcond hlimit
      have hcount : timeouts i (pre ++ [⟨u, e, o, v⟩]) =
          timeouts i pre + if e = .rxTimeout i then 1 else 0 := by
        simp [timeouts, List.countP_append, List.countP_singleton]
      rw [hcount] at hlimit ⊢
      obtain ⟨hstored, hquiet⟩ := ih (hlimit.of_le (Nat.le_add_right _ _))
      cases u with
      | none => cases hstep
      | some s =>
          have hlimit' : e = .rxTimeout i → Allowed maxRetries (timeouts i pre + 1) := by
            intro he
            simpa [he] using hlimit
          obtain ⟨hnext, hlast⟩ := hstored.step hstep hcond hlimit'
          refine ⟨hnext, ?_⟩
          intro x hx
          rcases List.mem_append.mp hx with hx | hx
          · exact hquiet x hx
          · rw [List.mem_singleton.mp hx]
            exact hlast)
  exact hinv hrelease hallowed

end Steps

/-! ## Exactly one packet is handed on -/

/-- The first PUBLISH under an identifier is stored and handed on. -/
theorem first_step {s : MqttClientSession} {p : Publish} {o : Except Fault Answer}
    {t : Option MqttClientSession} (hqos : p.qos = .exactlyOnce)
    (hfree : s.rxInFlightPublications.publications.lookup p.packetIdentifier = none)
    (hstep : session.step (some s) (.clientSentPublish p) = some (o, t)) :
    Stored p.packetIdentifier s.rxInFlightPublications.maxRetries 0 t ∧
      forwarded ⟨some s, .clientSentPublish p, o, t⟩ = some p := by
  have hfirst := RxInFlightPublications.clientSentPublish_exactlyOnce hqos hfree
  simp only [session, Machine.ofFallible, step, MqttClientSession.clientSentPublish, hfirst,
    bind, Except.bind, Except.map, pure, Except.pure, if_true, Option.some.injEq,
    Prod.mk.injEq] at hstep
  obtain ⟨rfl, rfl⟩ := hstep
  refine ⟨⟨s.rxInFlightPublications.received p, by simp, ?_⟩, rfl⟩
  exact ⟨rfl, rfl, rfl, fun _ => rfl⟩

/-- From the first PUBLISH under an identifier up to the PUBREL for it exactly one
packet with this identifier is handed on, namely the first, as long as the handlers
of the publication's timer do not exhaust its retries. -/
theorem forwarded_once {s : MqttClientSession} {p : Publish} {first : SessionStep}
    {copies : List SessionStep} {t : Option MqttClientSession}
    (hrun : session.Run (some s) (first :: copies) t)
    (hfirst : first.event = .clientSentPublish p) (hqos : p.qos = .exactlyOnce)
    (hfree : s.rxInFlightPublications.publications.lookup p.packetIdentifier = none)
    (hrelease : ∀ x ∈ copies, x.event ≠ .clientReleasedPublish p.packetIdentifier)
    (hallowed : Allowed s.rxInFlightPublications.maxRetries
      (timeouts p.packetIdentifier copies)) :
    forwarded first = some p ∧
      (first :: copies).countP (forwards p.packetIdentifier) = 1 := by
  cases hrun with
  | @cons _ u _ e o _ hstep hrest =>
      have he : e = .clientSentPublish p := hfirst
      subst he
      obtain ⟨hstored, hforwarded⟩ := first_step hqos hfree hstep
      refine ⟨hforwarded, ?_⟩
      obtain ⟨-, hquiet⟩ := hstored.of_run hrest hrelease hallowed
      have hcopies : copies.countP (forwards p.packetIdentifier) = 0 := by
        rw [List.countP_eq_zero]
        intro x hx
        simp [hquiet x hx]
      have hone : forwards p.packetIdentifier
          ⟨some s, .clientSentPublish p, o, u⟩ = true := by
        simp [forwards, hforwarded]
      rw [List.countP_cons_of_pos hone, hcopies]

/-! ## Runs of a concrete session -/

/-- A client without a last will. -/
def sampleConnect : Connect :=
  Connect.create 0 [0x4D, 0x51, 0x54, 0x54] 4 0x02 60 [0x61] [] [] [] []

/-- The session of this client when one retry is allowed. -/
def sampleSession : MqttClientSession := MqttClientSession.clientConnected 1 sampleConnect

/-- A packet with identifier 7. -/
def samplePublish : Publish := Publish.create false .exactlyOnce false [0x74] 7 [0x01]

/-- The client repeats its packet before and after one timeout. -/
def repeatedRun : Option (List SessionStep × Option MqttClientSession) :=
  session.exec (some sampleSession)
    [.clientSentPublish samplePublish, .clientSentPublish (samplePublish.setDup true),
      .rxTimerElapses 7, .rxTimeout 7, .clientSentPublish (samplePublish.setDup true)]

theorem repeatedRun_isSome : repeatedRun.isSome = true := rfl

/-- The copies are ignored. -/
theorem forwarded_once_repeatedRun :
    (repeatedRun.get repeatedRun_isSome).1.countP (forwards 7) = 1 := by
  have hrun := Machine.run_exec (Option.some_get repeatedRun_isSome).symm
  exact (forwarded_once (p := samplePublish) hrun rfl (by decide) rfl (by decide)
    (by decide)).2

/-- The client repeats its packet after two timeouts. -/
def forgottenRun : Option (List SessionStep × Option MqttClientSession) :=
  session.exec (some sampleSession)
    [.clientSentPublish samplePublish, .rxTimerElapses 7, .rxTimeout 7, .rxTimerElapses 7,
      .rxTimeout 7, .clientSentPublish (samplePublish.setDup true)]

theorem forgottenRun_isSome : forgottenRun.isSome = true := rfl

/-- Once the retries are exhausted a copy of the packet is handed on again, although
the client has not released it. -/
theorem forwarded_twice : ∃ steps t,
    session.Run (some sampleSession) steps t ∧
      steps.head?.map (fun x => x.event) = some (.clientSentPublish samplePublish) ∧
      (∀ x ∈ steps, x.event ≠ .clientReleasedPublish 7) ∧
      steps.countP (forwards 7) = 2 := by
  refine ⟨(forgottenRun.get forgottenRun_isSome).1, _,
    Machine.run_exec (Option.some_get forgottenRun_isSome).symm, rfl, by decide, by decide⟩

end Qos2Receiver
end Dispatch
end WallyIo
