import WallyIo.Dispatch.TxInFlightPublications
import WallyIo.Dispatch.RxInFlightPublications
import WallyIo.Library.Machine

/-!
# A sender and a receiver of QoS 2 messages

The outgoing publications of one session and the incoming publications of another
one, joined by two reliable channels.  Messages are published one after the other,
packets arrive in the order in which they were sent, and timers expire at any time.

Seen through one packet identifier the joint state passes through few phases as
long as PUBREC and PUBREL are not repeated: then the receiver gets exactly one PUBREL
for each publication that it stores.

Main results:

- Theorem {lit}`Orderly.step`: each step keeps every exchange in one of its phases.
- Theorem {lit}`no_protocolViolation`: without repeated PUBREC and PUBREL neither side
  sees a protocol violation, and no assertion fails.
-/

namespace WallyIo
namespace Dispatch
namespace Qos2Exchange

open Protocol Library

/-! ## The joint machine -/

/-- Both sides, the packets on their way, and the messages still to be published. -/
structure Link where
  pending : List Publish
  sender : TxInFlightPublications
  receiver : RxInFlightPublications
  toReceiver : List MqttPacket
  toSender : List MqttPacket

/-- Nothing has been published yet. -/
def Link.start (messages : List Publish) (txRetries rxRetries : Nat) : Link where
  pending := messages
  sender := TxInFlightPublications.create txRetries
  receiver := RxInFlightPublications.create rxRetries
  toReceiver := []
  toSender := []

/-- What happens on the link. -/
inductive Event
  | publishNext
  | deliverToReceiver
  | deliverToSender
  | txTimerElapses (packetIdentifier : UInt16)
  | txTimeout (packetIdentifier : UInt16)
  | rxTimerElapses (packetIdentifier : UInt16)
  | rxTimeout (packetIdentifier : UInt16)
deriving DecidableEq, Repr

/-- The sender has acted: what it sends travels to the receiver. -/
def Link.senderActed (s : Link) (r : List SenderCall × TxInFlightPublications) :
    List SenderCall × Link :=
  (r.1, { s with sender := r.2, toReceiver := s.toReceiver ++ sentPackets r.1 })

/-- The receiver has acted: what it sends travels to the sender. -/
def Link.receiverActed (s : Link) (r : List SenderCall × RxInFlightPublications) :
    List SenderCall × Link :=
  (r.1, { s with receiver := r.2, toSender := s.toSender ++ sentPackets r.1 })

/-- One event. -/
def step (s : Link) : Event → Option (Except Fault (List SenderCall × Link))
  | .publishNext =>
      match s.pending with
      | [] => none
      | message :: rest => some <|
          (s.sender.publish true message .exactlyOnce).map fun (calls, _, t) =>
            ({ s with pending := rest } : Link).senderActed (calls, t)
  | .deliverToReceiver =>
      match s.toReceiver with
      | .publish p :: rest => some <|
          (s.receiver.clientSentPublish true p).map fun (_, calls, t) =>
            ({ s with toReceiver := rest } : Link).receiverActed (calls, t)
      | .publishAck (.pubrel i) :: rest => some <|
          (s.receiver.clientSentPubrel true i).map
            ({ s with toReceiver := rest } : Link).receiverActed
      | _ => none
  | .deliverToSender =>
      match s.toSender with
      | .publishAck ack :: rest => some <|
          (s.sender.responseReceived true ack).map
            ({ s with toSender := rest } : Link).senderActed
      | _ => none
  | .txTimerElapses i => (s.sender.timerElapses i).map fun t => .ok (s.senderActed ([], t))
  | .txTimeout i => (s.sender.timeout i).map (Except.map s.senderActed)
  | .rxTimerElapses i =>
      (s.receiver.timerElapses i).map fun t => .ok (s.receiverActed ([], t))
  | .rxTimeout i => (s.receiver.timeout i).map (Except.map s.receiverActed)

/-- The machine of the link. -/
def link : Machine (Option Link) Event (Except Fault (List SenderCall)) :=
  Machine.ofFallible step

/-- Executed steps of the machine. -/
abbrev LinkStep := Step (Option Link) Event (Except Fault (List SenderCall))

/-- One of the two sides takes its branch for violations of [MQTT-4.8.0-1]. -/
def violates (calls : List SenderCall) : Bool :=
  calls.any fun call => call = .stop TxInFlightPublications.protocolViolation ∨
    call = .stop RxInFlightPublications.protocolViolation

/-- The step neither fails an assertion nor detects a violation of the protocol. -/
def Agrees (x : LinkStep) : Prop :=
  match x.output with
  | .ok calls => violates calls = false
  | .error _ => False

/-! ## Which timeouts are counted, and which packets are repeated -/

/-- The sender waits for the PUBREC of a publication. -/
def awaitsPubrec (s : Link) (i : UInt16) : Bool :=
  match s.sender.publications.lookup i with
  | some (.qos2 p) => p.state == .waitingForRec
  | _ => false

/-- No publication times out more often than it may be retried, on either side. -/
def WithinRetries (txRetries rxRetries : Nat) (steps : List LinkStep) : Prop :=
  ∀ i, steps.countP (fun x => x.event = .txTimeout i) ≤ txRetries ∧
    steps.countP (fun x => x.event = .rxTimeout i) ≤ rxRetries

/-- No PUBREC and no PUBREL is repeated, and messages do not use the reserved quality
of service. -/
def orderly (s : Link) : Event → Bool
  | .publishNext => s.pending.head?.all fun message => message.qos != .reserved
  | .txTimeout i => awaitsPubrec s i
  | .rxTimeout _ => false
  | _ => true

/-- The step repeats neither a PUBREC nor a PUBREL. -/
def IsOrderly (x : LinkStep) : Prop := x.before.all (fun s => orderly s x.event) = true

instance (x : LinkStep) : Decidable (IsOrderly x) := inferInstanceAs (Decidable (_ = true))

/-! ## The link seen through one packet identifier -/

/-- Whether a packet belongs to the publication with the given identifier. -/
def identified (i : UInt16) : MqttPacket → Bool
  | .publish p => p.packetIdentifier == i
  | .publishAck ack => ack.packetIdentifier == i
  | _ => false

/-- The packets of one publication on a channel. -/
def onWire (i : UInt16) (channel : List MqttPacket) : List PacketType :=
  (channel.filter (identified i)).map MqttPacket.type

theorem onWire_cons_of_identified {i : UInt16} {packet : MqttPacket}
    (h : identified i packet = true) (rest : List MqttPacket) :
    onWire i (packet :: rest) = packet.type :: onWire i rest := by
  simp [onWire, h]

theorem onWire_cons_of_not_identified {i : UInt16} {packet : MqttPacket}
    (h : identified i packet = false) (rest : List MqttPacket) :
    onWire i (packet :: rest) = onWire i rest := by
  simp [onWire, h]

theorem onWire_snoc_of_identified {i : UInt16} {packet : MqttPacket}
    (h : identified i packet = true) (channel : List MqttPacket) :
    onWire i (channel ++ [packet]) = onWire i channel ++ [packet.type] := by
  simp [onWire, h]

theorem onWire_snoc_of_not_identified {i : UInt16} {packet : MqttPacket}
    (h : identified i packet = false) (channel : List MqttPacket) :
    onWire i (channel ++ [packet]) = onWire i channel := by
  simp [onWire, h]

@[simp]
theorem onWire_nil (i : UInt16) : onWire i [] = [] := rfl

theorem onWire_singleton {i : UInt16} {packet : MqttPacket}
    (h : identified i packet = true) : onWire i [packet] = [packet.type] :=
  onWire_cons_of_identified h []

/-- An acknowledgement belongs to the publication that it identifies. -/
theorem identified_publishAck (ack : PublishAck) :
    identified ack.packetIdentifier (.publishAck ack) = true := by
  simp [identified]

theorem onWire_append (i : UInt16) (channel packets : List MqttPacket) :
    onWire i (channel ++ packets) = onWire i channel ++ onWire i packets := by
  simp [onWire]

/-- The part of a link that concerns one packet identifier. -/
structure View where
  tx : Option TxEntry
  rx : Option RxPublication
  forward : List PacketType
  backward : List PacketType

/-- The view of a link through a packet identifier. -/
def Link.view (s : Link) (i : UInt16) : View where
  tx := s.sender.publications.lookup i
  rx := s.receiver.publications.lookup i
  forward := onWire i s.toReceiver
  backward := onWire i s.toSender

@[simp]
theorem view_senderActed (s : Link) (r : List SenderCall × TxInFlightPublications)
    (i : UInt16) :
    (s.senderActed r).2.view i =
      ⟨r.2.publications.lookup i, s.receiver.publications.lookup i,
        onWire i (s.toReceiver ++ sentPackets r.1), onWire i s.toSender⟩ := rfl

/-- An outgoing publication that waits for a response.  It has not been retried while
it waits for a PUBREC. -/
structure Awaits (i : UInt16) (retries : Nat) (p : Qos2TxPublication) : Prop where
  identifier : p.packetIdentifier = i
  qos : p.publish.qos = .exactlyOnce
  maxRetries : p.maxRetries = retries
  waiting : p.state = .waitingForRec ∨ p.state = .waitingForComp
  untried : p.state = .waitingForRec → p.retryCount = 0

/-- A publication waits whatever the state of its timer is. -/
theorem Awaits.withTimer {i : UInt16} {retries : Nat} {p : Qos2TxPublication}
    (h : Awaits i retries p) (timer : Timer) :
    Awaits i retries { p with retryOnTimeout := timer } :=
  ⟨h.identifier, h.qos, h.maxRetries, h.waiting, h.untried⟩

/-- An incoming publication that waits for its PUBREL. -/
structure Holds (i : UInt16) (r : RxPublication) : Prop where
  identifier : r.publishId = i
  waiting : r.state = .waitingForRel

/-- The phases of an exchange in which neither PUBREC nor PUBREL is repeated. -/
inductive Exchange (i : UInt16) (retries : Nat) : View → Prop
  /-- Not begun, or finished. -/
  | idle : Exchange i retries ⟨none, none, [], []⟩
  /-- Copies of the PUBLISH are on their way. -/
  | published (p : Qos2TxPublication) (hp : Awaits i retries p) (n : Nat) :
      Exchange i retries ⟨some (.qos2 p), none, List.replicate (n + 1) .publish, []⟩
  /-- The first copy has arrived, and its PUBREC is on its way. -/
  | received (p : Qos2TxPublication) (hp : Awaits i retries p) (r : RxPublication)
      (hr : Holds i r) (n : Nat) :
      Exchange i retries ⟨some (.qos2 p), some r, List.replicate n .publish, [.pubrec]⟩
  /-- The PUBREC has arrived, and the PUBREL is on its way. -/
  | released (p : Qos2TxPublication) (hp : Awaits i retries p)
      (hcomp : p.state = .waitingForComp) (r : RxPublication) (hr : Holds i r) (n : Nat) :
      Exchange i retries ⟨some (.qos2 p), some r, List.replicate n .publish ++ [.pubrel], []⟩
  /-- The PUBREL has arrived, and the PUBCOMP is on its way. -/
  | completed (p : Qos2TxPublication) (hp : Awaits i retries p)
      (hcomp : p.state = .waitingForComp) :
      Exchange i retries ⟨some (.qos2 p), none, [], [.pubcomp]⟩

namespace Exchange

variable {i : UInt16} {retries : Nat} {tx : Option TxEntry} {rx : Option RxPublication}
  {forward backward : List PacketType}

/-- A PUBLISH that arrives is the first one, or a copy that leaves the exchange in its phase. -/
theorem of_publish (h : Exchange i retries ⟨tx, rx, .publish :: forward, backward⟩) :
    (rx = none ∧ ∃ p n, tx = some (.qos2 p) ∧ Awaits i retries p ∧
        forward = List.replicate n .publish ∧ backward = []) ∨
      ∃ r, rx = some r ∧ Exchange i retries ⟨tx, rx, forward, backward⟩ := by
  generalize hview : (⟨tx, rx, .publish :: forward, backward⟩ : View) = v at h
  cases h with
  | idle | completed => simp at hview
  | published p hp n =>
      rw [List.replicate_succ] at hview
      simp only [View.mk.injEq, List.cons.injEq, true_and] at hview
      obtain ⟨htx, hrx, hforward, hbackward⟩ := hview
      exact Or.inl ⟨hrx, p, n, htx, hp, hforward, hbackward⟩
  | received p hp r hr n =>
      cases n with
      | zero => simp at hview
      | succ n =>
          rw [List.replicate_succ] at hview
          simp only [View.mk.injEq, List.cons.injEq, true_and] at hview
          obtain ⟨rfl, rfl, rfl, rfl⟩ := hview
          exact Or.inr ⟨r, rfl, .received p hp r hr n⟩
  | released p hp hcomp r hr n =>
      cases n with
      | zero => simp at hview
      | succ n =>
          rw [List.replicate_succ, List.cons_append] at hview
          simp only [View.mk.injEq, List.cons.injEq, true_and] at hview
          obtain ⟨rfl, rfl, rfl, rfl⟩ := hview
          exact Or.inr ⟨r, rfl, .released p hp hcomp r hr n⟩

/-- When a PUBREL arrives, nothing else is on its way. -/
theorem of_pubrel (h : Exchange i retries ⟨tx, rx, .pubrel :: forward, backward⟩) :
    ∃ p r, tx = some (.qos2 p) ∧ rx = some r ∧ forward = [] ∧ backward = [] ∧
      Awaits i retries p ∧ p.state = .waitingForComp ∧ Holds i r := by
  generalize hview : (⟨tx, rx, .pubrel :: forward, backward⟩ : View) = v at h
  cases h with
  | idle | completed => simp at hview
  | published p hp n => simp [List.replicate_succ] at hview
  | received p hp r hr n => cases n <;> simp [List.replicate_succ] at hview
  | released p hp hcomp r hr n =>
      cases n with
      | succ n => simp [List.replicate_succ] at hview
      | zero =>
          simp only [List.replicate_zero, List.nil_append, View.mk.injEq, List.cons.injEq,
            true_and] at hview
          obtain ⟨htx, hrx, hforward, hbackward⟩ := hview
          exact ⟨p, r, htx, hrx, hforward, hbackward, hp, hcomp, hr⟩

/-- When a PUBREC arrives, copies of the PUBLISH may still be on their way. -/
theorem of_pubrec (h : Exchange i retries ⟨tx, rx, forward, .pubrec :: backward⟩) :
    ∃ p r n, tx = some (.qos2 p) ∧ rx = some r ∧ forward = List.replicate n .publish ∧
      backward = [] ∧ Awaits i retries p ∧ Holds i r := by
  generalize hview : (⟨tx, rx, forward, .pubrec :: backward⟩ : View) = v at h
  cases h with
  | idle | published | released | completed => simp at hview
  | received p hp r hr n =>
      simp only [View.mk.injEq, List.cons.injEq, true_and] at hview
      obtain ⟨htx, hrx, hforward, hbackward⟩ := hview
      exact ⟨p, r, n, htx, hrx, hforward, hbackward, hp, hr⟩

/-- When a PUBCOMP arrives, nothing else is on its way. -/
theorem of_pubcomp (h : Exchange i retries ⟨tx, rx, forward, .pubcomp :: backward⟩) :
    ∃ p, tx = some (.qos2 p) ∧ rx = none ∧ forward = [] ∧ backward = [] ∧
      p.state = .waitingForComp := by
  generalize hview : (⟨tx, rx, forward, .pubcomp :: backward⟩ : View) = v at h
  cases h with
  | idle | published | received | released => simp at hview
  | completed p hp hcomp =>
      simp only [View.mk.injEq, List.cons.injEq, true_and] at hview
      obtain ⟨htx, hrx, hforward, hbackward⟩ := hview
      exact ⟨p, htx, hrx, hforward, hbackward, hcomp⟩

end Exchange

/-- Every exchange is in one of its phases, identifiers beyond the last one assigned
are unused, and enough of them are left. -/
structure Orderly (s : Link) : Prop where
  exchange : ∀ i, Exchange i s.sender.maxRetries (s.view i)
  unused : ∀ i : UInt16, s.sender.nextPacketIdentifier.toNat < i.toNat →
    s.view i = ⟨none, none, [], []⟩
  room : s.sender.nextPacketIdentifier.toNat + s.pending.length ≤ 65535
  forward : ∀ packet ∈ s.toReceiver, (∃ p, packet = .publish p ∧ p.qos = .exactlyOnce) ∨
    ∃ i, packet = .publishAck (.pubrel i)
  backward : ∀ packet ∈ s.toSender, (∃ i, packet = .publishAck (.pubrec i)) ∨
    ∃ i, packet = .publishAck (.pubcomp i)

/-- At first every exchange is idle. -/
theorem Orderly.start {messages : List Publish} (h : messages.length < 65536)
    (txRetries rxRetries : Nat) : Orderly (Link.start messages txRetries rxRetries) where
  exchange := fun _ => .idle
  unused := fun _ _ => rfl
  room := by
    simp only [Link.start, TxInFlightPublications.create, UInt16.reduceToNat]
    omega
  forward := by simp [Link.start]
  backward := by simp [Link.start]

/-! ## What the sender does in an exchange -/

section Sender

variable {t : TxInFlightPublications} {i : UInt16} {retries : Nat} {p : Qos2TxPublication}

/-- A PUBREC is answered by a PUBREL. -/
theorem pubrec_answered (hp : t.publications.lookup i = some (.qos2 p)) (h : Awaits i retries p) :
    ∃ q : Qos2TxPublication, Awaits i retries q ∧ q.state = .waitingForComp ∧
      t.responseReceived true (.pubrec i) =
        .ok ([.send (.publishAck (.pubrel i))], t.update i (.qos2 q)) := by
  have hid : p.publish.packetIdentifier = i := h.identifier
  have hstate : p.answered.startAckTimeout.state = .waitingForComp := by
    apply Qos2TxPublication.state_startAckTimeout
    rcases h.waiting with hw | hw <;> simp [Qos2TxPublication.answered, hw]
  refine ⟨p.answered.startAckTimeout, ⟨h.identifier, h.qos, h.maxRetries, Or.inr hstate, ?_⟩,
    hstate, ?_⟩
  · intro hrec
    rw [hstate] at hrec
    cases hrec
  rw [TxInFlightPublications.responseReceived_qos2 rfl hp]
  have htype : (PublishAck.pubrec i).type = .pubrec := rfl
  have hsame : (PublishAck.pubrec i).packetIdentifier = p.packetIdentifier :=
    h.identifier.symm
  have hreaction : p.responseReceived (.pubrec i) =
      .ok ⟨[.send (.publishAck (.pubrel i))], false, p.answered.startAckTimeout⟩ := by
    rcases h.waiting with hw | hw
    · rw [Qos2TxPublication.responseReceived_of_waitingForRec hw,
        if_neg (not_not_intro htype), if_pos hsame, Qos2TxPublication.pubrel, hid]
    · rw [Qos2TxPublication.responseReceived_of_waitingForComp hw, if_pos htype,
        Qos2TxPublication.pubrel, hid]
  rw [hreaction]
  rfl

/-- A PUBCOMP completes a publication that waits for it. -/
theorem pubcomp_completes (hp : t.publications.lookup i = some (.qos2 p))
    (hstate : p.state = .waitingForComp) :
    t.responseReceived true (.pubcomp i) = .ok ([], t.remove i) := by
  have htype : (PublishAck.pubcomp i).type = .pubcomp := rfl
  have hnot : (PublishAck.pubcomp i).type ≠ .pubrec := by
    rw [htype]
    decide
  rw [TxInFlightPublications.responseReceived_qos2 rfl hp,
    Qos2TxPublication.responseReceived_of_waitingForComp hstate, if_neg hnot, if_pos htype]
  exact TxInFlightPublications.settle_released i _ _

/-- A timeout before the PUBREC sends the PUBLISH again. -/
theorem timeout_resends {answer : Except Fault (List SenderCall × TxInFlightPublications)}
    (hp : t.publications.lookup i = some (.qos2 p)) (h : Awaits i retries p)
    (hstate : p.state = .waitingForRec) (hretries : 1 ≤ retries)
    (hanswer : t.timeout i = some answer) :
    ∃ (q : Qos2TxPublication) (packet : Publish), Awaits i retries q ∧
      packet.packetIdentifier = i ∧ packet.qos = .exactlyOnce ∧
        answer = .ok ([.send (.publish packet)], t.update i (.qos2 q)) := by
  obtain ⟨timer, rfl⟩ := TxInFlightPublications.timeout_qos2 hp hanswer
  let q : Qos2TxPublication := { p with retryOnTimeout := timer }
  have hq : q.state = .waitingForRec := hstate
  have hcomp : q.retried.duplicate.startAckTimeout.state = .waitingForComp := by
    apply Qos2TxPublication.state_startAckTimeout
    simp [Qos2TxPublication.duplicate, Qos2TxPublication.retried, hq]
  refine ⟨q.retried.duplicate.startAckTimeout, p.publish.setDup true, ?_, h.identifier, ?_, ?_⟩
  · refine ⟨h.identifier, (Publish.qos_setDup p.publish true).trans h.qos, h.maxRetries,
      Or.inr hcomp, ?_⟩
    intro hrec
    rw [hcomp] at hrec
    cases hrec
  · exact (Publish.qos_setDup p.publish true).trans h.qos
  · change q.ackTimeoutExpired.bind _ = _
    rw [Qos2TxPublication.ackTimeoutExpired_of_waitingForRec hq]
    have hcount : p.retryCount = 0 := h.untried hstate
    have hmay : q.mayRetry = true := by
      simp only [TxPublication.mayRetry, decide_eq_true_eq]
      change (p.retryCount + 1).toNat ≤ p.maxRetries
      rw [hcount, h.maxRetries]
      exact hretries
    rw [if_pos hmay]
    rfl

end Sender

/-! ## One step -/

theorem identified_of_ne {i j : UInt16} {packet : MqttPacket}
    (h : identified i packet = true) (hij : j ≠ i) : identified j packet = false := by
  unfold identified at h ⊢
  split at h
  · simp only [beq_iff_eq] at h
    simpa [h] using Ne.symm hij
  · simp only [beq_iff_eq] at h
    simpa [h] using Ne.symm hij
  · cases h

/-- Packets of one publication are no packets of another one. -/
theorem onWire_of_ne {i j : UInt16} {packets : List MqttPacket}
    (h : ∀ packet ∈ packets, identified i packet = true) (hij : j ≠ i) :
    onWire j packets = [] := by
  have hnone : packets.filter (identified j) = [] := by
    rw [List.filter_eq_nil_iff]
    intro packet hp
    rw [identified_of_ne (h packet hp) hij]
    exact Bool.false_ne_true
  rw [onWire, hnone, List.map_nil]

/-- A step that concerns one identifier in use keeps all exchanges in their phases. -/
theorem Orderly.update {s s' : Link} (h : Orderly s) (i : UInt16)
    (hbusy : s.view i ≠ ⟨none, none, [], []⟩)
    (hi : Exchange i s.sender.maxRetries (s'.view i))
    (hmax : s'.sender.maxRetries = s.sender.maxRetries)
    (hother : ∀ j, j ≠ i → s'.view j = s.view j)
    (hnext : s'.sender.nextPacketIdentifier = s.sender.nextPacketIdentifier)
    (hpending : s'.pending = s.pending)
    (hforward : ∀ packet ∈ s'.toReceiver, packet ∈ s.toReceiver ∨
      (∃ p, packet = .publish p ∧ p.qos = .exactlyOnce) ∨
        ∃ i, packet = .publishAck (.pubrel i))
    (hbackward : ∀ packet ∈ s'.toSender, packet ∈ s.toSender ∨
      (∃ i, packet = .publishAck (.pubrec i)) ∨
        ∃ i, packet = .publishAck (.pubcomp i)) : Orderly s' where
  exchange := by
    intro j
    rw [hmax]
    by_cases hj : j = i
    · rw [hj]
      exact hi
    · rw [hother j hj]
      exact h.exchange j
  unused := by
    intro j hj
    rw [hnext] at hj
    have hne : j ≠ i := by
      rintro rfl
      exact hbusy (h.unused j hj)
    rw [hother j hne]
    exact h.unused j hj
  room := by
    rw [hnext, hpending]
    exact h.room
  forward := by
    intro packet hp
    rcases hforward packet hp with hold | hnew
    · exact h.forward packet hold
    · exact hnew
  backward := by
    intro packet hp
    rcases hbackward packet hp with hold | hnew
    · exact h.backward packet hold
    · exact hnew

/-- A step from {lit}`s` that ends well. -/
def EndsWell (s : Link) (answer : Except Fault (List SenderCall × Link)) : Prop :=
  ∃ calls s', answer = .ok (calls, s') ∧ violates calls = false ∧
    s'.sender.maxRetries = s.sender.maxRetries ∧ Orderly s'

section Step

variable {s : Link} {rest : List MqttPacket} {i : UInt16}

/-- A packet that heads a channel makes its exchange busy. -/
private theorem busy_of_forward {packet : MqttPacket} (hchannel : s.toReceiver = packet :: rest)
    (hid : identified i packet = true) : s.view i ≠ ⟨none, none, [], []⟩ := by
  intro hview
  have hforward := congrArg View.forward hview
  simp only [Link.view, hchannel, onWire_cons_of_identified hid, reduceCtorEq] at hforward

private theorem busy_of_backward {packet : MqttPacket} (hchannel : s.toSender = packet :: rest)
    (hid : identified i packet = true) : s.view i ≠ ⟨none, none, [], []⟩ := by
  intro hview
  have hbackward := congrArg View.backward hview
  simp only [Link.view, hchannel, onWire_cons_of_identified hid, reduceCtorEq] at hbackward

/-- Packets of one publication are taken off a channel. -/
private theorem onWire_rest {packet : MqttPacket} {channel : List MqttPacket}
    (hchannel : channel = packet :: rest) (hid : identified i packet = true) {j : UInt16}
    (hj : j ≠ i) : onWire j rest = onWire j channel := by
  rw [hchannel, onWire_cons_of_not_identified (identified_of_ne hid hj)]

private theorem mem_of_mem_rest {packet : MqttPacket} {channel : List MqttPacket}
    (hchannel : channel = packet :: rest) : ∀ p ∈ rest, p ∈ channel := by
  rw [hchannel]
  exact fun p hp => List.mem_cons_of_mem _ hp

/-- The receiver acts on one publication.  It may have taken packets of this publication off
the channel. -/
theorem Orderly.receiverActs (h : Orderly s) (hbusy : s.view i ≠ ⟨none, none, [], []⟩)
    {channel : List MqttPacket} {calls : List SenderCall} {t : RxInFlightPublications}
    (hsubset : ∀ packet ∈ channel, packet ∈ s.toReceiver)
    (hchannel : ∀ j, j ≠ i → onWire j channel = onWire j s.toReceiver)
    (hlookup : ∀ j, j ≠ i → t.publications.lookup j = s.receiver.publications.lookup j)
    (hcalls : ∀ packet ∈ sentPackets calls,
      packet = .publishAck (.pubrec i) ∨ packet = .publishAck (.pubcomp i))
    (hviolates : violates calls = false)
    (hexchange : Exchange i s.sender.maxRetries
      ⟨s.sender.publications.lookup i, t.publications.lookup i, onWire i channel,
        onWire i s.toSender ++ onWire i (sentPackets calls)⟩) :
    EndsWell s (.ok (({ s with toReceiver := channel } : Link).receiverActed (calls, t))) := by
  have hidentified : ∀ packet ∈ sentPackets calls, identified i packet = true := by
    intro packet hp
    rcases hcalls packet hp with rfl | rfl
    · exact identified_publishAck (.pubrec i)
    · exact identified_publishAck (.pubcomp i)
  refine ⟨_, _, rfl, hviolates, rfl, h.update i hbusy ?_ rfl ?_ rfl rfl ?_ ?_⟩
  · simp only [Link.view, onWire_append]
    exact hexchange
  · intro j hj
    simp only [Link.view, onWire_append, onWire_of_ne hidentified hj, List.append_nil,
      hlookup j hj, hchannel j hj]
  · exact fun packet hp => Or.inl (hsubset packet hp)
  · intro packet hp
    rcases List.mem_append.mp hp with hp | hp
    · exact Or.inl hp
    · rcases hcalls packet hp with rfl | rfl
      · exact Or.inr (Or.inl ⟨i, rfl⟩)
      · exact Or.inr (Or.inr ⟨i, rfl⟩)

/-- The sender acts on one publication. -/
theorem Orderly.senderActs (h : Orderly s) (hbusy : s.view i ≠ ⟨none, none, [], []⟩)
    {channel : List MqttPacket} {calls : List SenderCall} {t : TxInFlightPublications}
    (hsubset : ∀ packet ∈ channel, packet ∈ s.toSender)
    (hchannel : ∀ j, j ≠ i → onWire j channel = onWire j s.toSender)
    (hlookup : ∀ j, j ≠ i → t.publications.lookup j = s.sender.publications.lookup j)
    (hmax : t.maxRetries = s.sender.maxRetries)
    (hnext : t.nextPacketIdentifier = s.sender.nextPacketIdentifier)
    (hcalls : ∀ packet ∈ sentPackets calls, identified i packet = true ∧
      ((∃ p, packet = .publish p ∧ p.qos = .exactlyOnce) ∨ packet = .publishAck (.pubrel i)))
    (hviolates : violates calls = false)
    (hexchange : Exchange i s.sender.maxRetries
      ⟨t.publications.lookup i, s.receiver.publications.lookup i,
        onWire i s.toReceiver ++ onWire i (sentPackets calls), onWire i channel⟩) :
    EndsWell s (.ok (({ s with toSender := channel } : Link).senderActed (calls, t))) := by
  have hidentified : ∀ packet ∈ sentPackets calls, identified i packet = true :=
    fun packet hp => (hcalls packet hp).1
  refine ⟨_, _, rfl, hviolates, hmax, h.update i hbusy ?_ hmax ?_ hnext rfl ?_ ?_⟩
  · simp only [Link.view, onWire_append]
    exact hexchange
  · intro j hj
    simp only [Link.view, onWire_append, onWire_of_ne hidentified hj, List.append_nil,
      hlookup j hj, hchannel j hj]
  · intro packet hp
    rcases List.mem_append.mp hp with hp | hp
    · exact Or.inl hp
    · rcases (hcalls packet hp).2 with hpublish | hpubrel
      · exact Or.inr (Or.inl hpublish)
      · exact Or.inr (Or.inr ⟨i, hpubrel⟩)
  · exact fun packet hp => Or.inl (hsubset packet hp)

/-- The next message is published under the next identifier. -/
theorem Orderly.publishNext (h : Orderly s) {message : Publish} {messages : List Publish}
    (hpending : s.pending = message :: messages) (hqos : message.qos ≠ .reserved) :
    EndsWell s ((s.sender.publish true message .exactlyOnce).map fun (calls, _, t) =>
      ({ s with pending := messages } : Link).senderActed (calls, t)) := by
  have hroom := h.room
  rw [hpending, List.length_cons] at hroom
  have hnext := TxInFlightPublications.toNat_nextIdentifier
    (t := s.sender) (by omega)
  have hidle := h.unused s.sender.nextIdentifier (by omega)
  have hfree : s.sender.publications.lookup s.sender.nextIdentifier = none :=
    congrArg View.tx hidle
  obtain ⟨q, hpublish, hstate, hid, hexactly, hmax, huntried⟩ :=
    TxInFlightPublications.publish_exactlyOnce hqos hfree
  rw [hpublish]
  refine ⟨_, _, rfl, rfl, rfl, ?_⟩
  have hid' : q.publish.packetIdentifier = s.sender.nextIdentifier := hid
  have hself : identified s.sender.nextIdentifier (.publish q.publish) = true := by
    simpa [identified] using hid'
  have hother : ∀ j, j ≠ s.sender.nextIdentifier →
      (({ s with pending := messages } : Link).senderActed ([.send (.publish q.publish)],
        s.sender.assign.update s.sender.nextIdentifier (.qos2 q))).2.view j = s.view j := by
    intro j hj
    rw [view_senderActed]
    simp [Link.view, hj, onWire_snoc_of_not_identified (identified_of_ne hself hj)]
  constructor
  · intro j
    by_cases hj : j = s.sender.nextIdentifier
    · rw [hj]
      have hrx := congrArg View.rx hidle
      have hforward := congrArg View.forward hidle
      have hbackward := congrArg View.backward hidle
      simp only [Link.view] at hrx hforward hbackward
      have hview : (({ s with pending := messages } : Link).senderActed
          ([.send (.publish q.publish)],
            s.sender.assign.update s.sender.nextIdentifier (.qos2 q))).2.view
              s.sender.nextIdentifier = ⟨some (.qos2 q), none, [.publish], []⟩ := by
        simp [hrx, hforward, hbackward, onWire_snoc_of_identified hself, MqttPacket.type]
      exact hview ▸ .published q ⟨hid, hexactly, hmax, Or.inl hstate, fun _ => huntried⟩ 0
    · exact hother j hj ▸ h.exchange j
  · intro j hj
    have hj' : s.sender.nextIdentifier.toNat < j.toNat := hj
    have hne : j ≠ s.sender.nextIdentifier := by
      rintro rfl
      omega
    exact (hother j hne).trans (h.unused j (by omega))
  · have hgoal : s.sender.nextIdentifier.toNat + messages.length ≤ 65535 := by omega
    exact hgoal
  · intro packet hp
    simp only [sentPackets_send, sentPackets_nil, List.mem_append,
      List.mem_singleton] at hp
    rcases hp with hp | rfl
    · exact h.forward packet hp
    · exact Or.inl ⟨_, rfl, hexactly⟩
  · exact h.backward

/-- A PUBLISH arrives at the receiver. -/
theorem Orderly.deliverPublish (h : Orderly s) {p : Publish}
    (hchannel : s.toReceiver = .publish p :: rest) :
    EndsWell s ((s.receiver.clientSentPublish true p).map fun (_, calls, t) =>
      ({ s with toReceiver := rest } : Link).receiverActed (calls, t)) := by
  have hself : identified p.packetIdentifier (.publish p) = true := by simp [identified]
  have hbusy := busy_of_forward hchannel hself
  have hqos : p.qos = .exactlyOnce := by
    rcases h.forward (.publish p) (by simp [hchannel]) with ⟨p', hp', hqos⟩ | ⟨j, hj⟩
    · cases hp'
      exact hqos
    · cases hj
  have hsubset := mem_of_mem_rest hchannel
  -- A copy of a stored publication changes nothing but the channel.
  have hcopy : ∀ r, s.receiver.publications.lookup p.packetIdentifier = some r →
      Exchange p.packetIdentifier s.sender.maxRetries
        (({ s with toReceiver := rest } : Link).view p.packetIdentifier) →
      EndsWell s ((s.receiver.clientSentPublish true p).map fun (_, calls, t) =>
        ({ s with toReceiver := rest } : Link).receiverActed (calls, t)) := by
    intro r hr hexchange
    rw [RxInFlightPublications.clientSentPublish_duplicate hr]
    apply h.receiverActs hbusy hsubset (fun j hj => onWire_rest hchannel hself hj)
      (fun _ _ => rfl) (fun packet hp => absurd hp List.not_mem_nil) rfl
    simpa [Link.view] using hexchange
  have hexchange := h.exchange p.packetIdentifier
  simp only [Link.view, hchannel, onWire_cons_of_identified hself, MqttPacket.type] at hexchange
  rcases hexchange.of_publish with ⟨hrx, q, n, htx, hq, hforward, hbackward⟩ | ⟨r, hrx, hnext⟩
  · rw [RxInFlightPublications.clientSentPublish_exactlyOnce hqos hrx]
    apply h.receiverActs hbusy hsubset (fun j hj => onWire_rest hchannel hself hj)
      (fun j hj => by simp [hj]) (by simp) rfl
    have hwire : onWire p.packetIdentifier
        [.publishAck (.pubrec p.packetIdentifier)] = [.pubrec] :=
      onWire_singleton (identified_publishAck _)
    have hnext : Exchange p.packetIdentifier s.sender.maxRetries
        ⟨some (.qos2 q), some (s.receiver.received p), List.replicate n .publish, [.pubrec]⟩ :=
      .received q hq _ ⟨rfl, rfl⟩ n
    simpa [htx, hforward, hbackward, hwire] using hnext
  · exact hcopy r hrx hnext

/-- A PUBREL arrives at the receiver. -/
theorem Orderly.deliverPubrel (h : Orderly s)
    (hchannel : s.toReceiver = .publishAck (.pubrel i) :: rest) :
    EndsWell s ((s.receiver.clientSentPubrel true i).map
      ({ s with toReceiver := rest } : Link).receiverActed) := by
  have hself : identified i (.publishAck (.pubrel i)) = true := identified_publishAck _
  have hbusy := busy_of_forward hchannel hself
  have hexchange := h.exchange i
  simp only [Link.view, hchannel, onWire_cons_of_identified hself, MqttPacket.type,
    PublishAck.type] at hexchange
  obtain ⟨q, r, htx, hrx, hforward, hbackward, hq, hstate, hr⟩ := hexchange.of_pubrel
  rw [RxInFlightPublications.clientSentPubrel_known hrx hr.waiting hr.identifier]
  apply h.receiverActs hbusy (mem_of_mem_rest hchannel)
    (fun j hj => onWire_rest hchannel hself hj) (fun j hj => by simp [hj]) (by simp) rfl
  have hwire : onWire i [.publishAck (.pubcomp i)] = [.pubcomp] :=
    onWire_singleton (identified_publishAck _)
  have hnext : Exchange i s.sender.maxRetries
      ⟨some (.qos2 q), none, [], [.pubcomp]⟩ := .completed q hq hstate
  simpa [htx, hforward, hbackward, hwire] using hnext

/-- A PUBREC arrives at the sender. -/
theorem Orderly.deliverPubrec (h : Orderly s)
    (hchannel : s.toSender = .publishAck (.pubrec i) :: rest) :
    EndsWell s ((s.sender.responseReceived true (.pubrec i)).map
      ({ s with toSender := rest } : Link).senderActed) := by
  have hself : identified i (.publishAck (.pubrec i)) = true := identified_publishAck _
  have hrel : identified i (.publishAck (.pubrel i)) = true := identified_publishAck _
  have hbusy := busy_of_backward hchannel hself
  have hexchange := h.exchange i
  simp only [Link.view, hchannel, onWire_cons_of_identified hself, MqttPacket.type,
    PublishAck.type] at hexchange
  obtain ⟨q, r, n, htx, hrx, hforward, hbackward, hq, hr⟩ := hexchange.of_pubrec
  obtain ⟨q', hq', hstate, hresponse⟩ := pubrec_answered htx hq
  rw [hresponse]
  refine h.senderActs (t := s.sender.update i (.qos2 q')) hbusy (mem_of_mem_rest hchannel)
    (fun j hj => onWire_rest hchannel hself hj) (fun j hj => by simp [hj]) rfl rfl
    (by simp [hrel]) rfl ?_
  have hwire : onWire i [.publishAck (.pubrel i)] = [.pubrel] := onWire_singleton hrel
  have hnext : Exchange i s.sender.maxRetries
      ⟨some (.qos2 q'), some r, List.replicate n .publish ++ [.pubrel], []⟩ :=
    .released q' hq' hstate r hr n
  simpa [hrx, hforward, hbackward, hwire] using hnext

/-- A PUBCOMP arrives at the sender. -/
theorem Orderly.deliverPubcomp (h : Orderly s)
    (hchannel : s.toSender = .publishAck (.pubcomp i) :: rest) :
    EndsWell s ((s.sender.responseReceived true (.pubcomp i)).map
      ({ s with toSender := rest } : Link).senderActed) := by
  have hself : identified i (.publishAck (.pubcomp i)) = true := identified_publishAck _
  have hbusy := busy_of_backward hchannel hself
  have hexchange := h.exchange i
  simp only [Link.view, hchannel, onWire_cons_of_identified hself, MqttPacket.type,
    PublishAck.type] at hexchange
  obtain ⟨q, htx, hrx, hforward, hbackward, hstate⟩ := hexchange.of_pubcomp
  rw [pubcomp_completes htx hstate]
  refine h.senderActs (t := s.sender.remove i) hbusy (mem_of_mem_rest hchannel)
    (fun j hj => onWire_rest hchannel hself hj) (fun j hj => by simp [hj]) rfl rfl
    (fun packet hp => absurd hp List.not_mem_nil) rfl ?_
  have hnext : Exchange i s.sender.maxRetries ⟨none, none, [], []⟩ := .idle
  simpa [hrx, hforward, hbackward] using hnext

/-- A timer of the sender elapses. -/
theorem Orderly.txTimerElapses (h : Orderly s) {t : TxInFlightPublications}
    (ht : s.sender.timerElapses i = some t) : EndsWell s (.ok (s.senderActed ([], t))) := by
  obtain ⟨entry, timer, hentry, rfl⟩ := TxInFlightPublications.timerElapses_cases ht
  have hbusy : s.view i ≠ ⟨none, none, [], []⟩ := by
    intro hview
    have htx := congrArg View.tx hview
    simp only [Link.view, hentry, reduceCtorEq] at htx
  have hsame :
      Exchange i s.sender.maxRetries { s.view i with tx := some (entry.withTimer timer) } := by
    have hexchange := h.exchange i
    have htx : (s.view i).tx = some entry := hentry
    generalize s.view i = v at hexchange htx
    cases hexchange with
    | idle => cases htx
    | published q hq n =>
        cases htx
        exact .published { q with retryOnTimeout := timer } (hq.withTimer timer) n
    | received q hq r hr n =>
        cases htx
        exact .received { q with retryOnTimeout := timer } (hq.withTimer timer) r hr n
    | released q hq hstate r hr n =>
        cases htx
        exact .released { q with retryOnTimeout := timer } (hq.withTimer timer) hstate r
          hr n
    | completed q hq hstate =>
        cases htx
        exact .completed _ (hq.withTimer timer) hstate
  refine h.senderActs (t := s.sender.update i (entry.withTimer timer)) hbusy (fun _ hp => hp)
    (fun _ _ => rfl) (fun j hj => by simp [hj]) rfl rfl
    (fun packet hp => absurd hp List.not_mem_nil) rfl ?_
  simpa [Link.view] using hsame

/-- A timer of the receiver elapses. -/
theorem Orderly.rxTimerElapses (h : Orderly s) {t : RxInFlightPublications}
    (ht : s.receiver.timerElapses i = some t) :
    EndsWell s (.ok (s.receiverActed ([], t))) := by
  obtain ⟨r, timer, hr, rfl⟩ := RxInFlightPublications.timerElapses_cases ht
  have hbusy : s.view i ≠ ⟨none, none, [], []⟩ := by
    intro hview
    have hrx := congrArg View.rx hview
    simp only [Link.view, hr, reduceCtorEq] at hrx
  have hsame : Exchange i s.sender.maxRetries
      { s.view i with rx := some { r with retryOnTimeout := timer } } := by
    have hexchange := h.exchange i
    have hrx : (s.view i).rx = some r := hr
    generalize s.view i = v at hexchange hrx
    cases hexchange with
    | idle => cases hrx
    | published q hq n => cases hrx
    | received q hq r' hr' n =>
        cases hrx
        exact .received q hq { r with retryOnTimeout := timer }
          ⟨hr'.identifier, hr'.waiting⟩ n
    | released q hq hstate r' hr' n =>
        cases hrx
        exact .released q hq hstate { r with retryOnTimeout := timer }
          ⟨hr'.identifier, hr'.waiting⟩ n
    | completed q hq hstate => cases hrx
  apply h.receiverActs hbusy (fun _ hp => hp) (fun _ _ => rfl) (fun j hj => by simp [hj])
    (fun packet hp => absurd hp List.not_mem_nil) rfl
  simpa [Link.view] using hsame

/-- The sender sends a PUBLISH again while it waits for the PUBREC. -/
theorem Orderly.txTimeout (h : Orderly s)
    {answer : Except Fault (List SenderCall × TxInFlightPublications)}
    (hanswer : s.sender.timeout i = some answer) (hawaits : awaitsPubrec s i = true)
    (hretries : 1 ≤ s.sender.maxRetries) :
    EndsWell s (answer.map s.senderActed) := by
  have hexchange := h.exchange i
  have hentry : (s.view i).tx = s.sender.publications.lookup i := rfl
  have hrx : (s.view i).rx = s.receiver.publications.lookup i := rfl
  have hforward : (s.view i).forward = onWire i s.toReceiver := rfl
  have hbackward : (s.view i).backward = onWire i s.toSender := rfl
  obtain ⟨p, hp, hstate⟩ : ∃ p, s.sender.publications.lookup i = some (.qos2 p) ∧
      p.state = .waitingForRec := by
    unfold awaitsPubrec at hawaits
    split at hawaits
    · rename_i p hp
      exact ⟨p, hp, by simpa using hawaits⟩
    · cases hawaits
  have hbusy : s.view i ≠ ⟨none, none, [], []⟩ := by
    intro hview
    rw [hview, hp] at hentry
    cases hentry
  -- One more copy of the PUBLISH is on its way afterwards.
  have hresend : Awaits i s.sender.maxRetries p →
      (∀ q : Qos2TxPublication, Awaits i s.sender.maxRetries q →
        Exchange i s.sender.maxRetries ⟨some (.qos2 q), (s.view i).rx,
          (s.view i).forward ++ [.publish], (s.view i).backward⟩) →
        EndsWell s (answer.map s.senderActed) := by
    intro hawait hnext
    obtain ⟨q, packet, hq, hid, hqos, rfl⟩ := timeout_resends hp hawait hstate hretries hanswer
    have hself : identified i (.publish packet) = true := by simpa [identified] using hid
    refine h.senderActs (t := s.sender.update i (.qos2 q)) hbusy (fun _ hp => hp) (fun _ _ => rfl)
      (fun j hj => by simp [hj]) rfl rfl (by simp [hself, hqos]) rfl ?_
    have hwire : onWire i [.publish packet] = [.publish] := onWire_singleton hself
    simpa [Link.view, hwire] using hnext q hq
  rw [hp] at hentry
  generalize s.view i = v at hexchange hentry hresend
  cases hexchange with
  | idle => cases hentry
  | published q hq n =>
      cases hentry
      refine hresend hq fun q' hq' => ?_
      rw [← List.replicate_succ']
      exact .published q' hq' (n + 1)
  | received q hq r hr n =>
      cases hentry
      refine hresend hq fun q' hq' => ?_
      rw [← List.replicate_succ']
      exact .received q' hq' r hr (n + 1)
  | released q hq hcomp r hr n =>
      cases hentry
      rw [hstate] at hcomp
      cases hcomp
  | completed q hq hcomp =>
      cases hentry
      rw [hstate] at hcomp
      cases hcomp

/-- Each event that repeats neither PUBREC nor PUBREL keeps every exchange in one of
its phases and ends well. -/
theorem Orderly.step (h : Orderly s) {e : Event}
    {answer : Except Fault (List SenderCall × Link)}
    (hstep : Qos2Exchange.step s e = some answer) (horderly : orderly s e = true)
    (hretries : ∀ i, e = .txTimeout i → 1 ≤ s.sender.maxRetries) : EndsWell s answer := by
  cases e with
  | publishNext =>
      cases hpending : s.pending with
      | nil => simp [Qos2Exchange.step, hpending] at hstep
      | cons message messages =>
          simp only [Qos2Exchange.step, hpending, Option.some.injEq] at hstep
          subst hstep
          have hqos : message.qos ≠ .reserved := by
            simpa [orderly, hpending] using horderly
          exact h.publishNext hpending hqos
  | deliverToReceiver =>
      cases hchannel : s.toReceiver with
      | nil => simp [Qos2Exchange.step, hchannel] at hstep
      | cons packet rest =>
          rcases h.forward packet (by simp [hchannel]) with ⟨p, rfl, -⟩ | ⟨i, rfl⟩
          · simp only [Qos2Exchange.step, hchannel, Option.some.injEq] at hstep
            subst hstep
            exact h.deliverPublish hchannel
          · simp only [Qos2Exchange.step, hchannel, Option.some.injEq] at hstep
            subst hstep
            exact h.deliverPubrel hchannel
  | deliverToSender =>
      cases hchannel : s.toSender with
      | nil => simp [Qos2Exchange.step, hchannel] at hstep
      | cons packet rest =>
          rcases h.backward packet (by simp [hchannel]) with ⟨i, rfl⟩ | ⟨i, rfl⟩
          · simp only [Qos2Exchange.step, hchannel, Option.some.injEq] at hstep
            subst hstep
            exact h.deliverPubrec hchannel
          · simp only [Qos2Exchange.step, hchannel, Option.some.injEq] at hstep
            subst hstep
            exact h.deliverPubcomp hchannel
  | txTimerElapses i =>
      simp only [Qos2Exchange.step, Option.map_eq_some_iff] at hstep
      obtain ⟨t, ht, rfl⟩ := hstep
      exact h.txTimerElapses ht
  | txTimeout i =>
      simp only [Qos2Exchange.step, Option.map_eq_some_iff] at hstep
      obtain ⟨r, hr, rfl⟩ := hstep
      exact h.txTimeout hr horderly (hretries i rfl)
  | rxTimerElapses i =>
      simp only [Qos2Exchange.step, Option.map_eq_some_iff] at hstep
      obtain ⟨t, ht, rfl⟩ := hstep
      exact h.rxTimerElapses ht
  | rxTimeout i => cases horderly

end Step

/-! ## Runs -/

/-- As long as neither PUBREC nor PUBREL is repeated, and no publication exhausts its
retries, no side sees a violation of the protocol and no assertion fails. -/
theorem no_protocolViolation {messages : List Publish} (hfew : messages.length < 65536)
    {txRetries rxRetries : Nat} {steps : List LinkStep} {t : Option Link}
    (hrun : link.Run (some (Link.start messages txRetries rxRetries)) steps t)
    (hretries : WithinRetries txRetries rxRetries steps)
    (horderly : ∀ x ∈ steps, IsOrderly x) : ∀ x ∈ steps, Agrees x := by
  have hinv := hrun.history_invariant
    (fun x => (∀ i, x.event = .txTimeout i → 1 ≤ txRetries) ∧ IsOrderly x)
    (fun pre u => (∀ x ∈ pre, Agrees x) ∧
      ∃ s, u = some s ∧ s.sender.maxRetries = txRetries ∧ Orderly s)
    ⟨by simp, _, rfl, rfl, Orderly.start hfew txRetries rxRetries⟩ (by
      rintro pre u e o v - ⟨hpre, s, rfl, hmax, hs⟩ hstep ⟨hwithin, horder⟩
      have hgood : ∀ answer, step s e = some answer → EndsWell s answer := fun answer ha =>
        hs.step ha horder fun i he => hmax.symm ▸ hwithin i he
      rcases Machine.ofFallible_step_some hstep with
        ⟨f, hf, -, -⟩ | ⟨calls, s', hf, rfl, rfl⟩
      · obtain ⟨calls, s', hok, -⟩ := hgood _ hf
        cases hok
      · obtain ⟨calls', s'', hok, hviolates, hmax', hs'⟩ := hgood _ hf
        cases hok
        refine ⟨?_, s', rfl, hmax'.trans hmax, hs'⟩
        intro x hx
        rcases List.mem_append.mp hx with hx | hx
        · exact hpre x hx
        · rw [List.mem_singleton.mp hx]
          exact hviolates)
  refine (hinv fun x hx => ⟨?_, horderly x hx⟩).1
  intro i he
  have hpos : 0 < steps.countP (fun x => x.event = .txTimeout i) := by
    rw [List.countP_pos_iff]
    exact ⟨x, hx, by simpa using he⟩
  exact Nat.lt_of_lt_of_le hpos (hretries i).1

/-! ## Runs of a concrete message -/

/-- Whether an event is a handler of a retry timer. -/
def isTimeout : Event → Bool
  | .txTimeout _ => true
  | .rxTimeout _ => true
  | _ => false

/-- If there are few timeouts at all, no publication exhausts its retries. -/
theorem WithinRetries.of_countP {txRetries rxRetries n : Nat} {steps : List LinkStep}
    (h : steps.countP (fun x => isTimeout x.event) ≤ n) (htx : n ≤ txRetries)
    (hrx : n ≤ rxRetries) : WithinRetries txRetries rxRetries steps := by
  intro i
  have htxCount : steps.countP (fun x => x.event = .txTimeout i) ≤
      steps.countP (fun x => isTimeout x.event) := by
    apply List.countP_mono_left
    intro x _ hx
    simp only [decide_eq_true_eq] at hx
    simp [isTimeout, hx]
  have hrxCount : steps.countP (fun x => x.event = .rxTimeout i) ≤
      steps.countP (fun x => isTimeout x.event) := by
    apply List.countP_mono_left
    intro x _ hx
    simp only [decide_eq_true_eq] at hx
    simp [isTimeout, hx]
  omega

/-- One message, and three retries on both sides. -/
def sampleLink : Link :=
  Link.start [Publish.create false .exactlyOnce false [0x74] 9 [0x01]] 3 3

/-- The PUBLISH is repeated before its PUBREC arrives. -/
def repeatedPublishRun : Option (List LinkStep × Option Link) :=
  link.exec (some sampleLink)
    [.publishNext, .txTimerElapses 1, .txTimeout 1, .deliverToReceiver, .deliverToReceiver,
      .deliverToSender, .deliverToReceiver, .deliverToSender]

theorem repeatedPublishRun_isSome : repeatedPublishRun.isSome = true := rfl

/-- Both sides agree on a message whose PUBLISH is repeated. -/
theorem no_protocolViolation_repeatedPublishRun : ∃ steps t,
    link.Run (some sampleLink) steps t ∧ steps.length = 8 ∧ ∀ x ∈ steps, Agrees x := by
  have hrun := Machine.run_exec (Option.some_get repeatedPublishRun_isSome).symm
  refine ⟨_, _, hrun, rfl, ?_⟩
  exact no_protocolViolation (by decide) hrun
    (WithinRetries.of_countP (n := 1) (by decide) (by decide) (by decide)) (by decide)

/-- The PUBREC is repeated before the PUBREL arrives. -/
def repeatedPubrecRun : Option (List LinkStep × Option Link) :=
  link.exec (some sampleLink)
    [.publishNext, .deliverToReceiver, .rxTimerElapses 1, .rxTimeout 1, .deliverToSender,
      .deliverToSender, .deliverToReceiver, .deliverToReceiver]

theorem repeatedPubrecRun_isSome : repeatedPubrecRun.isSome = true := rfl

/-- A single timeout of the receiver makes it see a violation of the protocol. -/
theorem protocolViolation_of_repeated_pubrec : ∃ steps t,
    link.Run (some sampleLink) steps t ∧ WithinRetries 1 1 steps ∧
      ∃ x ∈ steps, x.output = .ok [.stop RxInFlightPublications.protocolViolation] ∧
        ¬Agrees x := by
  have hnonempty : (repeatedPubrecRun.get repeatedPubrecRun_isSome).1 ≠ [] := by decide
  refine ⟨(repeatedPubrecRun.get repeatedPubrecRun_isSome).1, _,
    Machine.run_exec (Option.some_get repeatedPubrecRun_isSome).symm,
    WithinRetries.of_countP (n := 1) (by decide) (by decide) (by decide),
    _, List.getLast_mem hnonempty, rfl, ?_⟩
  have hviolates :
      violates [.stop RxInFlightPublications.protocolViolation] = true := by decide
  intro hagrees
  have hfalse : violates [.stop RxInFlightPublications.protocolViolation] = false := hagrees
  rw [hviolates] at hfalse
  cases hfalse

end Qos2Exchange
end Dispatch
end WallyIo
