import WallyIo.Dispatch.TxPublication
import WallyIo.Library.Machine

/-!
# The sender's side of a QoS 2 exchange

One {lit}`qos2_tx_publication` from its construction until its table releases it,
under every order of responses and timer handlers.  The MQTT protocol is a
property of whole histories: which packets have been sent so far, and which
responses have arrived.

Main results:

- Theorem {lit}`step_transition`: the ways in which a publication can answer an
  event.
- Theorem {lit}`Tracks.of_run`: before the first PUBREC no PUBREL is sent and the
  publication does not leave the states before it, unless it retries.
- Theorem {lit}`senderProtocol_iff_no_premature_retry`: a run follows the protocol
  exactly if no retry happens while a PUBREC is waited for.
-/

namespace WallyIo
namespace Dispatch
namespace Qos2Sender

open Protocol Library

/-! ## The publication as a machine -/

/-- What happens to a publication. -/
inductive Event
  /-- The table that created the publication starts it. -/
  | start
  /-- The client sends PUBACK, PUBREC or PUBCOMP. -/
  | response (ack : PublishAck)
  /-- The retry timer elapses, which queues its handler. -/
  | timerElapses
  /-- A queued handler of the retry timer runs. -/
  | timeout
deriving DecidableEq, Repr

/-- A publication is in its table until it is released. -/
inductive Phase
  | inFlight (publication : Qos2TxPublication)
  | released (publication : Qos2TxPublication)
deriving DecidableEq, Repr

/-- Calls and phase after a publication has reacted. -/
def settle (reaction : Reaction Qos2TxPublication) : List SenderCall × Phase :=
  (reaction.calls,
    if reaction.released then .released reaction.after else .inFlight reaction.after)

/-- One event.  The table starts a publication once, it routes responses by packet
identifier, and handlers of released publications do nothing. -/
def step : Phase → Event → Option (Except Fault (List SenderCall × Phase))
  | .released _, _ => none
  | .inFlight p, .start =>
      if p.state = .initial then some (.ok (p.start.1, .inFlight p.start.2)) else none
  | .inFlight p, .response ack =>
      if isResponse ack ∧ ack.packetIdentifier = p.packetIdentifier then
        some ((p.responseReceived ack).map settle)
      else none
  | .inFlight p, .timerElapses =>
      p.retryOnTimeout.expire.map fun timer =>
        .ok ([], .inFlight { p with retryOnTimeout := timer })
  | .inFlight p, .timeout =>
      p.retryOnTimeout.takeExpired.map fun timer =>
        ({ p with retryOnTimeout := timer } : Qos2TxPublication).ackTimeoutExpired.map settle

/-- The machine of one publication. -/
def sender : Machine (Option Phase) Event (Except Fault (List SenderCall)) :=
  Machine.ofFallible step

/-- Executed steps of the machine. -/
abbrev SenderStep := Step (Option Phase) Event (Except Fault (List SenderCall))

/-- How a publication {lit}`p` in flight answers an event. -/
inductive Transition (p : Qos2TxPublication) :
    Event → Except Fault (List SenderCall × Phase) → Prop
  | started (hstate : p.state = .initial) (q : Qos2TxPublication)
      (hid : q.packetIdentifier = p.packetIdentifier) (hq : q.state = .waitingForRec) :
      Transition p .start (.ok ([.send (.publish p.publish)], .inFlight q))
  | elapsed (q : Qos2TxPublication) (hid : q.packetIdentifier = p.packetIdentifier)
      (hq : q.state = p.state) : Transition p .timerElapses (.ok ([], .inFlight q))
  | refused (hstate : p.state = .waitingForRec) (ack : PublishAck)
      (hack : ack.type ≠ .pubrec) (q : Qos2TxPublication)
      (hid : q.packetIdentifier = p.packetIdentifier) (hq : q.state = .waitingForRec) :
      Transition p (.response ack)
        (.ok ([.stop Qos2TxPublication.pubrecExpected], .inFlight q))
  | received (hstate : p.state = .waitingForRec ∨ p.state = .waitingForComp)
      (q : Qos2TxPublication) (hid : q.packetIdentifier = p.packetIdentifier)
      (hq : q.state = .waitingForComp) :
      Transition p (.response (.pubrec p.packetIdentifier))
        (.ok ([.send p.pubrel], .inFlight q))
  | completed (hstate : p.state = .waitingForComp) (q : Qos2TxPublication)
      (hq : q.state = .completed) :
      Transition p (.response (.pubcomp p.packetIdentifier)) (.ok ([], .released q))
  | resentPublish (hstate : p.state = .waitingForRec) (hretry : p.mayRetry = true)
      (q : Qos2TxPublication) (hid : q.packetIdentifier = p.packetIdentifier)
      (hq : q.state = .waitingForComp) :
      Transition p .timeout
        (.ok ([.send (.publish (p.publish.setDup true))], .inFlight q))
  | resentPubrel (hstate : p.state = .waitingForComp) (hretry : p.mayRetry = true)
      (q : Qos2TxPublication) (hid : q.packetIdentifier = p.packetIdentifier)
      (hq : q.state = .waitingForComp) :
      Transition p .timeout (.ok ([.send p.pubrel], .inFlight q))
  | exhausted (hretry : p.mayRetry = false) (q : Qos2TxPublication)
      (hq : q.state = .terminallyFailed) : Transition p .timeout (.ok ([], .released q))
  | failed (e : Event) (failure : Fault) (hstate : p.state ≠ .waitingForRec) :
      Transition p e (.error failure)

/-- The state after a wait has been started by anything but {lit}`start`. -/
private theorem waitingForComp_of_restart {p q : Qos2TxPublication}
    (h : p.state = .waitingForRec ∨ p.state = .waitingForComp) (hq : q.state = p.state) :
    q.startAckTimeout.state = .waitingForComp := by
  apply Qos2TxPublication.state_startAckTimeout
  rw [hq]
  rcases h with h | h <;> simp [h]

/-- A response that the table routes to a publication. -/
private theorem response_transition {p : Qos2TxPublication} {ack : PublishAck}
    (hresponse : isResponse ack = true) (hid : ack.packetIdentifier = p.packetIdentifier) :
    Transition p (.response ack) ((p.responseReceived ack).map settle) := by
  by_cases hrec : p.state = .waitingForRec
  · rw [Qos2TxPublication.responseReceived_of_waitingForRec hrec]
    by_cases hack : ack.type = .pubrec
    · rw [if_neg (not_not_intro hack), if_pos hid]
      cases ack <;> simp only [PublishAck.type, reduceCtorEq] at hack
      have hi : _ = p.packetIdentifier := hid
      subst hi
      exact .received (Or.inl hrec) _ rfl (waitingForComp_of_restart (Or.inl hrec) rfl)
    · rw [if_pos hack]
      exact .refused hrec ack hack _ rfl hrec
  · by_cases hcomp : p.state = .waitingForComp
    · rw [Qos2TxPublication.responseReceived_of_waitingForComp hcomp]
      cases ack with
      | puback i => exact .failed _ _ hrec
      | pubrec i =>
          have hi : i = p.packetIdentifier := hid
          subst hi
          exact .received (Or.inr hcomp) _ rfl (waitingForComp_of_restart (Or.inr hcomp) rfl)
      | pubrel i => simp [isResponse, PublishAck.type] at hresponse
      | pubcomp i =>
          have hi : i = p.packetIdentifier := hid
          subst hi
          exact .completed hcomp _ rfl
    · rw [Qos2TxPublication.responseReceived_of_not_waiting hrec hcomp]
      exact .failed _ _ hrec

/-- A handler of the retry timer. -/
private theorem timeout_transition (p q : Qos2TxPublication) (hstate : q.state = p.state)
    (hretry : q.mayRetry = p.mayRetry) (hpublish : q.publish = p.publish) :
    Transition p .timeout (q.ackTimeoutExpired.map settle) := by
  have hid : q.packetIdentifier = p.packetIdentifier :=
    congrArg Publish.packetIdentifier hpublish
  by_cases hrec : p.state = .waitingForRec
  · have hq : q.state = .waitingForRec := hstate.trans hrec
    rw [Qos2TxPublication.ackTimeoutExpired_of_waitingForRec hq, hpublish]
    cases hmay : q.mayRetry with
    | true =>
        exact .resentPublish hrec (hretry.symm.trans hmay) _ hid
          (waitingForComp_of_restart (Or.inl hq) rfl)
    | false => exact .exhausted (hretry.symm.trans hmay) _ rfl
  · by_cases hcomp : p.state = .waitingForComp
    · have hq : q.state = .waitingForComp := hstate.trans hcomp
      have hpubrel : q.pubrel = p.pubrel :=
        congrArg (fun i => MqttPacket.publishAck (.pubrel i)) hid
      rw [Qos2TxPublication.ackTimeoutExpired_of_waitingForComp hq, hpubrel]
      cases hmay : q.mayRetry with
      | true =>
          exact .resentPubrel hcomp (hretry.symm.trans hmay) _ hid
            (waitingForComp_of_restart (Or.inr hq) rfl)
      | false => exact .exhausted (hretry.symm.trans hmay) _ rfl
    · rw [Qos2TxPublication.ackTimeoutExpired_of_not_waiting (hstate ▸ hrec) (hstate ▸ hcomp)]
      exact .failed _ _ hrec

/-- A publication answers every event by one of its transitions. -/
theorem step_transition {p : Qos2TxPublication} {e : Event}
    {answer : Except Fault (List SenderCall × Phase)}
    (h : step (.inFlight p) e = some answer) : Transition p e answer := by
  cases e with
  | start =>
      simp only [step] at h
      split at h
      · rename_i hstate
        cases h
        exact .started hstate _ rfl (Qos2TxPublication.state_startAckTimeout_of_initial hstate)
      · cases h
  | response ack =>
      simp only [step] at h
      split at h
      · rename_i hrouted
        cases h
        exact response_transition hrouted.1 hrouted.2
      · cases h
  | timerElapses =>
      simp only [step, Option.map_eq_some_iff] at h
      obtain ⟨timer, -, rfl⟩ := h
      exact .elapsed _ rfl rfl
  | timeout =>
      simp only [step, Option.map_eq_some_iff] at h
      obtain ⟨timer, -, rfl⟩ := h
      exact timeout_transition p _ rfl rfl rfl

/-! ## The protocol -/

/-- A step sends a packet. -/
def Sends (x : SenderStep) (packet : MqttPacket) : Prop :=
  ∃ calls, x.output = .ok calls ∧ packet ∈ sentPackets calls

/-- A step sends a PUBREL for an identifier. -/
def SendsPubrel (i : UInt16) (x : SenderStep) : Prop := Sends x (.publishAck (.pubrel i))

/-- A step receives a PUBREC for an identifier. -/
def ReceivesPubrec (i : UInt16) (x : SenderStep) : Prop := x.event = .response (.pubrec i)

/-- A step sends the packet of its publication again, marked as a duplicate. -/
def ResendsPublish (x : SenderStep) : Prop :=
  ∃ p, x.before = some (.inFlight p) ∧ Sends x (.publish (p.publish.setDup true))

/-- The publication waits for a PUBREC. -/
def waitsForRec : Option Phase → Bool
  | some (.inFlight p) => p.state == .waitingForRec
  | _ => false

/-- The publication may retry once more. -/
def mayRetry : Option Phase → Bool
  | some (.inFlight p) => p.mayRetry
  | _ => false

/-- A timer handler runs that does not exhaust the retries. -/
def Retries (x : SenderStep) : Prop := x.event = .timeout ∧ mayRetry x.before = true

/-- A retry while the publication waits for a PUBREC. -/
def PrematureRetry (x : SenderStep) : Prop := Retries x ∧ waitsForRec x.before = true

instance (x : SenderStep) : Decidable (PrematureRetry x) :=
  inferInstanceAs (Decidable ((_ ∧ _) ∧ _))

theorem waitsForRec_iff {phase : Option Phase} :
    waitsForRec phase = true ↔
      ∃ p, phase = some (.inFlight p) ∧ p.state = .waitingForRec := by
  unfold waitsForRec
  split <;> simp_all

/-- The sender's part of the MQTT protocol for one packet identifier. -/
structure SenderProtocol (i : UInt16) (steps : List SenderStep) : Prop where
  /-- A PUBREL is sent only after a PUBREC has been received. -/
  pubrel_after_pubrec : ∀ pre x post, steps = pre ++ x :: post → SendsPubrel i x →
    ∃ y ∈ pre ++ [x], ReceivesPubrec i y
  /-- As long as no PUBREC has been received a retry sends the PUBLISH, not a PUBREL,
  and a PUBREC is still waited for. -/
  retry_resends_publish : ∀ pre x post, steps = pre ++ x :: post →
    (∀ y ∈ pre, ¬ReceivesPubrec i y) → Retries x →
      ResendsPublish x ∧ ¬SendsPubrel i x ∧ waitsForRec x.after = true
  /-- No PUBLISH follows a PUBREL. -/
  no_publish_after_pubrel : ∀ pre x post, steps = pre ++ x :: post →
    (∃ y ∈ pre, SendsPubrel i y) → ∀ packet, ¬Sends x (.publish packet)
  /-- The publication completes on a PUBCOMP that follows a PUBREC. -/
  completed_by_pubcomp : ∀ pre x post, steps = pre ++ x :: post →
    (∃ p, x.after = some (.released p) ∧ p.state = .completed) →
      x.event = .response (.pubcomp i) ∧ ∃ y ∈ pre, ReceivesPubrec i y

/-- How the state of a publication reflects its history. -/
def Tracks (i : UInt16) (pre : List SenderStep) : Option Phase → Prop
  | some (.inFlight p) =>
      p.packetIdentifier = i ∧
        match p.state with
        | .initial => p.retryOnTimeout = Timer.idle ∧ pre = []
        | .waitingForRec => ∀ y ∈ pre, ¬ReceivesPubrec i y ∧ ¬SendsPubrel i y
        | .waitingForComp => ∃ y ∈ pre, ReceivesPubrec i y ∨ PrematureRetry y
        | .completed => False
        | .terminallyFailed => False
  | some (.released _) => True
  | none => True

section Steps

variable {i : UInt16} {pre : List SenderStep} {p : Qos2TxPublication} {e : Event}
  {o : Except Fault (List SenderCall)} {t : Option Phase}

/-- Only publications in flight take steps. -/
theorem inFlight_of_step {s : Option Phase} (h : sender.step s e = some (o, t)) :
    ∃ p, s = some (.inFlight p) := by
  cases s with
  | none => cases h
  | some phase =>
      cases phase with
      | inFlight p => exact ⟨p, rfl⟩
      | released p => cases h

/-- A publication that has not been started is not woken by its timer. -/
theorem not_timer_of_tracks_initial (hp : Tracks i pre (some (.inFlight p)))
    (hstate : p.state = .initial) (h : sender.step (some (.inFlight p)) e = some (o, t)) :
    e ≠ .timerElapses ∧ e ≠ .timeout := by
  simp only [Tracks, hstate] at hp
  have hidle : p.retryOnTimeout = Timer.idle := hp.2.1
  constructor
  · rintro rfl
    simp [sender, Machine.ofFallible, step, hidle, Timer.idle, Timer.expire] at h
  · rintro rfl
    simp [sender, Machine.ofFallible, step, hidle, Timer.idle, Timer.takeExpired] at h

/-- Each step keeps the state in line with the history. -/
theorem Tracks.step (hp : Tracks i pre (some (.inFlight p)))
    (h : sender.step (some (.inFlight p)) e = some (o, t)) :
    Tracks i (pre ++ [⟨some (.inFlight p), e, o, t⟩]) t := by
  rcases Machine.ofFallible_step_some h with ⟨failure, -, -, rfl⟩ | ⟨calls, phase, hf, rfl, rfl⟩
  · trivial
  have hid : p.packetIdentifier = i := hp.1
  have htimer := fun hstate => not_timer_of_tracks_initial hp hstate h
  cases step_transition hf with
  | started hstate q hq hqs =>
      simp only [Tracks, hstate] at hp
      simp only [Tracks, hq, hid, hqs, hp.2.2, true_and, List.nil_append,
        List.mem_singleton, forall_eq]
      simp [ReceivesPubrec, SendsPubrel, Sends]
  | elapsed q hq hqs =>
      cases hstate : p.state with
      | initial => exact absurd rfl (htimer hstate).1
      | waitingForRec =>
          simp only [Tracks, hstate] at hp
          simp only [Tracks, hq, hid, hqs, hstate, true_and, List.forall_mem_append,
            List.mem_singleton, forall_eq]
          exact ⟨hp.2, by simp [ReceivesPubrec], by simp [SendsPubrel, Sends]⟩
      | waitingForComp =>
          simp only [Tracks, hstate] at hp
          obtain ⟨-, y, hy, hcause⟩ := hp
          simp only [Tracks, hq, hid, hqs, hstate, true_and]
          exact ⟨y, List.mem_append_left _ hy, hcause⟩
      | completed => simp [Tracks, hstate] at hp
      | terminallyFailed => simp [Tracks, hstate] at hp
  | refused hstate ack hack q hq hqs =>
      simp only [Tracks, hstate] at hp
      simp only [Tracks, hq, hid, hqs, true_and, List.forall_mem_append,
        List.mem_singleton, forall_eq]
      refine ⟨hp.2, ?_, by simp [SendsPubrel, Sends]⟩
      intro hrec
      cases hrec
      exact hack rfl
  | received hstate q hq hqs =>
      simp only [Tracks, hq, hid, hqs, true_and]
      exact ⟨_, List.mem_append_right _ (List.mem_singleton_self _),
        Or.inl (by simp [ReceivesPubrec])⟩
  | completed hstate q hqs => trivial
  | resentPublish hstate hretry q hq hqs =>
      simp only [Tracks, hq, hid, hqs, true_and]
      exact ⟨_, List.mem_append_right _ (List.mem_singleton_self _),
        Or.inr ⟨⟨rfl, hretry⟩, waitsForRec_iff.mpr ⟨p, rfl, hstate⟩⟩⟩
  | resentPubrel hstate hretry q hq hqs =>
      simp only [Tracks, hstate] at hp
      obtain ⟨-, y, hy, hcause⟩ := hp
      simp only [Tracks, hq, hid, hqs, true_and]
      exact ⟨y, List.mem_append_left _ hy, hcause⟩
  | exhausted hretry q hqs => trivial

end Steps

/-- A publication as its constructor leaves it. -/
def Created (maxRetries : Nat) (publish : Publish) (p : Qos2TxPublication) : Prop :=
  Qos2TxPublication.create maxRetries publish = .ok p

/-- In every run the state of a publication reflects its history. -/
theorem Tracks.of_run {maxRetries : Nat} {publish : Publish} {p : Qos2TxPublication}
    (hp : Created maxRetries publish p) {steps : List SenderStep} {t : Option Phase}
    (h : sender.Run (some (.inFlight p)) steps t) :
    Tracks p.packetIdentifier steps t := by
  refine h.history_invariant (fun _ => True) (Tracks p.packetIdentifier) ?_ ?_
    (fun _ _ => trivial)
  · obtain ⟨hstate, -, -, hidle, -⟩ := Qos2TxPublication.create_eq_ok hp
    simp [Tracks, hstate, hidle]
  · intro pre s e o u _ hs hstep _
    obtain ⟨q, rfl⟩ := inFlight_of_step hstep
    exact hs.step hstep

section Protocol

variable {i : UInt16} {pre : List SenderStep} {x : SenderStep}

/-- A PUBREL is sent while a response is waited for: in answer to a PUBREC, or after
a PUBREC or a premature retry. -/
theorem cause_of_sendsPubrel (hx : Tracks i pre x.before)
    (hstep : sender.step x.before x.event = some (x.output, x.after))
    (hsend : SendsPubrel i x) :
    ∃ y ∈ pre ++ [x], ReceivesPubrec i y ∨ PrematureRetry y := by
  obtain ⟨before, e, o, after⟩ := x
  obtain ⟨p, rfl⟩ := inFlight_of_step hstep
  rcases Machine.ofFallible_step_some hstep with
    ⟨failure, -, rfl, -⟩ | ⟨calls, phase, hf, rfl, rfl⟩
  · simp [SendsPubrel, Sends] at hsend
  cases step_transition hf with
  | received hstate q hq hqs =>
      exact ⟨_, List.mem_append_right _ (List.mem_singleton_self _),
        Or.inl (by simp [ReceivesPubrec, hx.1])⟩
  | resentPubrel hstate hretry q hq hqs =>
      simp only [Tracks, hstate] at hx
      obtain ⟨-, y, hy, hcause⟩ := hx
      exact ⟨y, List.mem_append_left _ hy, hcause⟩
  | started | elapsed | refused | completed | resentPublish | exhausted =>
      simp [SendsPubrel, Sends] at hsend

/-- A retry after which no cause for a PUBCOMP has been seen is premature. -/
theorem prematureRetry_of_retries (hx : Tracks i pre x.before)
    (hstep : sender.step x.before x.event = some (x.output, x.after))
    (hcause : ∀ y ∈ pre, ¬(ReceivesPubrec i y ∨ PrematureRetry y)) (hretry : Retries x) :
    PrematureRetry x := by
  obtain ⟨before, e, o, after⟩ := x
  obtain ⟨p, rfl⟩ := inFlight_of_step hstep
  refine ⟨hretry, waitsForRec_iff.mpr ⟨p, rfl, ?_⟩⟩
  cases hstate : p.state with
  | initial => exact absurd hretry.1 (not_timer_of_tracks_initial hx hstate hstep).2
  | waitingForRec => rfl
  | waitingForComp =>
      simp only [Tracks, hstate] at hx
      obtain ⟨-, y, hy, hc⟩ := hx
      exact absurd hc (hcause y hy)
  | completed => simp [Tracks, hstate] at hx
  | terminallyFailed => simp [Tracks, hstate] at hx

/-- A PUBLISH is sent only while no PUBREL has been sent. -/
theorem not_sendsPubrel_of_sends_publish (hx : Tracks i pre x.before)
    (hstep : sender.step x.before x.event = some (x.output, x.after)) {packet : Publish}
    (hsend : Sends x (.publish packet)) : ∀ y ∈ pre, ¬SendsPubrel i y := by
  obtain ⟨before, e, o, after⟩ := x
  obtain ⟨p, rfl⟩ := inFlight_of_step hstep
  rcases Machine.ofFallible_step_some hstep with
    ⟨failure, -, rfl, -⟩ | ⟨calls, phase, hf, rfl, rfl⟩
  · simp [Sends] at hsend
  cases step_transition hf with
  | started hstate q hq hqs =>
      simp only [Tracks, hstate] at hx
      simp [hx.2.2]
  | resentPublish hstate hretry q hq hqs =>
      simp only [Tracks, hstate] at hx
      exact fun y hy => (hx.2 y hy).2
  | elapsed | refused | received | completed | resentPubrel | exhausted =>
      simp [Sends, Qos2TxPublication.pubrel] at hsend

/-- A publication completes on a PUBCOMP. -/
theorem pubcomp_of_completed (hx : Tracks i pre x.before)
    (hstep : sender.step x.before x.event = some (x.output, x.after))
    (hdone : ∃ p, x.after = some (.released p) ∧ p.state = .completed) :
    x.event = .response (.pubcomp i) ∧
      ∃ y ∈ pre, ReceivesPubrec i y ∨ PrematureRetry y := by
  obtain ⟨before, e, o, after⟩ := x
  obtain ⟨p, rfl⟩ := inFlight_of_step hstep
  obtain ⟨r, hr, hstate'⟩ := hdone
  rw [hr] at hstep
  obtain ⟨calls, hf, rfl⟩ := Machine.ofFallible_step_alive_iff.mp hstep
  cases step_transition hf with
  | completed hstate q hqs =>
      simp only [Tracks, hstate] at hx
      exact ⟨by simp [hx.1], hx.2⟩
  | exhausted hretry q hqs =>
      rw [hqs] at hstate'
      cases hstate'

end Protocol

/-- Without premature retries a PUBREC is the only cause for expecting a PUBCOMP. -/
private theorem pubrec_of_cause {i : UInt16} {ys steps : List SenderStep}
    (hall : ∀ x ∈ steps, ¬PrematureRetry x) (hsub : ys ⊆ steps)
    (h : ∃ y ∈ ys, ReceivesPubrec i y ∨ PrematureRetry y) :
    ∃ y ∈ ys, ReceivesPubrec i y := by
  obtain ⟨y, hy, hrec | hretry⟩ := h
  · exact ⟨y, hy, hrec⟩
  · exact absurd hretry (hall y (hsub hy))

/-- A run follows the sender's part of the protocol exactly if no retry happens
while the publication waits for a PUBREC. -/
theorem senderProtocol_iff_no_premature_retry {maxRetries : Nat} {publish : Publish}
    {p : Qos2TxPublication} (hp : Created maxRetries publish p) {steps : List SenderStep}
    {t : Option Phase} (h : sender.Run (some (.inFlight p)) steps t) :
    SenderProtocol p.packetIdentifier steps ↔ ∀ x ∈ steps, ¬PrematureRetry x := by
  constructor
  · intro hprotocol x hx hpremature
    obtain ⟨pre, post, hsplit⟩ := List.append_of_mem hx
    obtain ⟨hpre, hstep, -⟩ := h.split hsplit
    have htracks := Tracks.of_run hp hpre
    obtain ⟨hretries, hwaitsRec⟩ := hpremature
    obtain ⟨q, hbefore, hstate⟩ := waitsForRec_iff.mp hwaitsRec
    have hnone : ∀ y ∈ pre, ¬ReceivesPubrec p.packetIdentifier y := by
      rw [hbefore] at htracks
      simp only [Tracks, hstate] at htracks
      exact fun y hy => (htracks.2 y hy).1
    -- The protocol keeps the publication waiting for a PUBREC, the code does not.
    obtain ⟨-, -, hstays⟩ :=
      hprotocol.retry_resends_publish pre x post hsplit hnone hretries
    obtain ⟨r, hafter, hwaits⟩ := waitsForRec_iff.mp hstays
    rw [hbefore, hretries.1, hafter] at hstep
    obtain ⟨calls, hf, -⟩ := Machine.ofFallible_step_alive_iff.mp hstep
    cases step_transition hf with
    | resentPublish _ _ _ _ hq => simp [hq] at hwaits
    | resentPubrel hcomp _ _ _ _ => simp [hstate] at hcomp
  · intro hall
    have hsub : ∀ {pre x post}, steps = pre ++ x :: post →
        pre ⊆ steps ∧ pre ++ [x] ⊆ steps := by
      rintro pre x post rfl
      constructor <;> intro y hy <;> simp at hy ⊢ <;> tauto
    constructor
    · intro pre x post hsplit hsend
      obtain ⟨hpre, hstep, -⟩ := h.split hsplit
      exact pubrec_of_cause hall (hsub hsplit).2
        (cause_of_sendsPubrel (Tracks.of_run hp hpre) hstep hsend)
    · intro pre x post hsplit hnone hretries
      obtain ⟨hpre, hstep, -⟩ := h.split hsplit
      have hcause : ∀ y ∈ pre,
          ¬(ReceivesPubrec p.packetIdentifier y ∨ PrematureRetry y) := by
        rintro y hy (hrec | hpremature)
        · exact hnone y hy hrec
        · exact hall y ((hsub hsplit).1 hy) hpremature
      have hpremature :=
        prematureRetry_of_retries (Tracks.of_run hp hpre) hstep hcause hretries
      exact absurd hpremature (hall x (by simp [hsplit]))
    · intro pre x post hsplit hsent packet hsend
      obtain ⟨hpre, hstep, -⟩ := h.split hsplit
      obtain ⟨y, hy, hpubrel⟩ := hsent
      exact not_sendsPubrel_of_sends_publish (Tracks.of_run hp hpre) hstep hsend y hy hpubrel
    · intro pre x post hsplit hdone
      obtain ⟨hpre, hstep, -⟩ := h.split hsplit
      obtain ⟨hevent, hcause⟩ :=
        pubcomp_of_completed (Tracks.of_run hp hpre) hstep hdone
      exact ⟨hevent, pubrec_of_cause hall (hsub hsplit).1 hcause⟩

/-! ## Runs of a concrete publication -/

/-- A publication with packet identifier 1 and two retries. -/
def samplePublication : Qos2TxPublication where
  publish := Publish.create false .exactlyOnce false [0x61] 1 []
  maxRetries := 2
  retryCount := 0
  retryOnTimeout := Timer.idle
  state := .initial

/-- The exchange of the publication with a client that answers. -/
def answeredRun : Option (List SenderStep × Option Phase) :=
  sender.exec (some (.inFlight samplePublication))
    [.start, .response (.pubrec 1), .timerElapses, .timeout, .response (.pubcomp 1)]

theorem answeredRun_isSome : answeredRun.isSome = true := rfl

/-- A client that answers sees the protocol followed, although the PUBREL is sent
twice. -/
theorem senderProtocol_answeredRun : ∃ steps t,
    sender.Run (some (.inFlight samplePublication)) steps t ∧ steps.length = 5 ∧
      SenderProtocol samplePublication.packetIdentifier steps := by
  have hrun := Machine.run_exec (Option.some_get answeredRun_isSome).symm
  have hcreated : Created 2 samplePublication.publish samplePublication := rfl
  have hcalm : ∀ x ∈ (answeredRun.get answeredRun_isSome).1, ¬PrematureRetry x := by decide
  exact ⟨_, _, hrun, rfl,
    (senderProtocol_iff_no_premature_retry hcreated hrun).mpr hcalm⟩

/-- The exchange of the publication with a client that does not answer. -/
def unansweredRun : Option (List SenderStep × Option Phase) :=
  sender.exec (some (.inFlight samplePublication))
    [.start, .timerElapses, .timeout, .timerElapses, .timeout]

theorem unansweredRun_isSome : unansweredRun.isSome = true := rfl

/-- A client that does not answer is sent a PUBREL, although it has not sent a
PUBREC. -/
theorem pubrel_without_pubrec : ∃ steps t,
    sender.Run (some (.inFlight samplePublication)) steps t ∧
      ¬SenderProtocol samplePublication.packetIdentifier steps := by
  refine ⟨(unansweredRun.get unansweredRun_isSome).1, _,
    Machine.run_exec (Option.some_get unansweredRun_isSome).symm, ?_⟩
  intro h
  have hnonempty : (unansweredRun.get unansweredRun_isSome).1 ≠ [] := by decide
  have hsplit := (List.dropLast_append_getLast hnonempty).symm
  have hpubrel :
      SendsPubrel 1 ((unansweredRun.get unansweredRun_isSome).1.getLast hnonempty) :=
    ⟨[.send (.publishAck (.pubrel 1))], rfl, by decide⟩
  obtain ⟨y, hy, hrec⟩ := h.pubrel_after_pubrec _ _ [] hsplit hpubrel
  have hnone : ∀ y ∈ (unansweredRun.get unansweredRun_isSome).1,
      y.event ≠ .response (.pubrec 1) := by
    decide
  exact hnone y (hsplit ▸ hy) hrec

end Qos2Sender
end Dispatch
end WallyIo
