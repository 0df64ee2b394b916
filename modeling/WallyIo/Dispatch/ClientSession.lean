import WallyIo.Dispatch.TxInFlightPublications
import WallyIo.Dispatch.RxInFlightPublications

/-!
# Client sessions

A session belongs to one client connection.  It keeps the publications in both
directions and the client's last will.  Whether its connection is still there is an
argument of every operation.

Main results:

- Theorem {lit}`clientSentPublish_frame`: what a client publishes does not concern
  the publications sent to it.
- Theorem {lit}`lastWill_isSome_iff`: a session has a last will exactly if its CONNECT
  carried one.
-/

namespace WallyIo
namespace Dispatch

open Protocol Library

/-- A client session. -/
structure MqttClientSession where
  clientId : Bytes
  txInFlightPublications : TxInFlightPublications
  rxInFlightPublications : RxInFlightPublications
  lwtMessage : Option {connect : Connect // connect.containsLastWill = true}

namespace MqttClientSession

/-- The constructor.  The CONNECT is kept if it contains a last will. -/
def clientConnected (maxRetries : Nat) (connect : Connect) : MqttClientSession where
  clientId := connect.clientId
  txInFlightPublications := TxInFlightPublications.create maxRetries
  rxInFlightPublications := RxInFlightPublications.create maxRetries
  lwtMessage :=
    if h : connect.containsLastWill = true then some ⟨connect, h⟩ else none

variable (s : MqttClientSession)

/-- The session with other outgoing publications. -/
def withTx (t : TxInFlightPublications) : MqttClientSession :=
  { s with txInFlightPublications := t }

/-- The session with other incoming publications. -/
def withRx (t : RxInFlightPublications) : MqttClientSession :=
  { s with rxInFlightPublications := t }

/-- Publish a packet to the client. -/
def publish (connected : Bool) (incomingPublish : Publish) (maximumQos : QoS) :
    Except Fault (List SenderCall × Publish × MqttClientSession) := do
  let (calls, incomingPublish, t) ←
    s.txInFlightPublications.publish connected incomingPublish maximumQos
  return (calls, incomingPublish, s.withTx t)

/-- The client sent a PUBLISH.  The result tells whether the session manager is asked
to publish the packet. -/
def clientSentPublish (connected : Bool) (incomingPublish : Publish) :
    Except Fault (Bool × List SenderCall × MqttClientSession) := do
  let (dispatchPublish, calls, t) ←
    s.rxInFlightPublications.clientSentPublish connected incomingPublish
  return (dispatchPublish, calls, s.withRx t)

/-- The client sent PUBACK, PUBREC or PUBCOMP. -/
def responseReceived (connected : Bool) (publishAck : PublishAck) :
    Except Fault (List SenderCall × MqttClientSession) := do
  let (calls, t) ← s.txInFlightPublications.responseReceived connected publishAck
  return (calls, s.withTx t)

/-- The client sent a PUBACK. -/
def clientAckedPublish (connected : Bool) (packetIdentifier : UInt16) :
    Except Fault (List SenderCall × MqttClientSession) :=
  s.responseReceived connected (.puback packetIdentifier)

/-- The client sent a PUBREC. -/
def clientReceivedPublish (connected : Bool) (packetIdentifier : UInt16) :
    Except Fault (List SenderCall × MqttClientSession) :=
  s.responseReceived connected (.pubrec packetIdentifier)

/-- The client sent a PUBCOMP. -/
def clientCompletedPublish (connected : Bool) (packetIdentifier : UInt16) :
    Except Fault (List SenderCall × MqttClientSession) :=
  s.responseReceived connected (.pubcomp packetIdentifier)

/-- The client sent a PUBREL. -/
def clientReleasedPublish (connected : Bool) (packetIdentifier : UInt16) :
    Except Fault (List SenderCall × MqttClientSession) := do
  let (calls, t) ← s.rxInFlightPublications.clientSentPubrel connected packetIdentifier
  return (calls, s.withRx t)

/-- The retry timer of an outgoing publication elapses. -/
def txTimerElapses (packetIdentifier : UInt16) : Option MqttClientSession :=
  (s.txInFlightPublications.timerElapses packetIdentifier).map s.withTx

/-- A queued handler of the retry timer of an outgoing publication runs. -/
def txTimeout (packetIdentifier : UInt16) :
    Option (Except Fault (List SenderCall × MqttClientSession)) :=
  (s.txInFlightPublications.timeout packetIdentifier).map
    (Except.map fun (calls, t) => (calls, s.withTx t))

/-- The retry timer of an incoming publication elapses. -/
def rxTimerElapses (packetIdentifier : UInt16) : Option MqttClientSession :=
  (s.rxInFlightPublications.timerElapses packetIdentifier).map s.withRx

/-- A queued handler of the retry timer of an incoming publication runs. -/
def rxTimeout (packetIdentifier : UInt16) :
    Option (Except Fault (List SenderCall × MqttClientSession)) :=
  (s.rxInFlightPublications.timeout packetIdentifier).map
    (Except.map fun (calls, t) => (calls, s.withRx t))

/-- The packet that publishes the last will, if there is one. -/
def lastWill : Option Publish :=
  s.lwtMessage.map fun lwt =>
    Publish.create false lwt.val.lastWillQos false (lwt.val.lastWillTopic lwt.property) 0x0000
      (lwt.val.lastWillMessage lwt.property)

/-! ## What the operations do -/

variable {s}

@[simp]
theorem rx_withTx (t : TxInFlightPublications) :
    (s.withTx t).rxInFlightPublications = s.rxInFlightPublications := rfl

@[simp]
theorem rx_withRx (t : RxInFlightPublications) :
    (s.withRx t).rxInFlightPublications = t := rfl

@[simp]
theorem tx_withTx (t : TxInFlightPublications) :
    (s.withTx t).txInFlightPublications = t := rfl

@[simp]
theorem tx_withRx (t : RxInFlightPublications) :
    (s.withRx t).txInFlightPublications = s.txInFlightPublications := rfl

/-- A session has a last will exactly if its CONNECT carried one. -/
theorem lastWill_isSome_iff (maxRetries : Nat) (connect : Connect) :
    (clientConnected maxRetries connect).lastWill.isSome = true ↔
      connect.containsLastWill = true := by
  by_cases h : connect.containsLastWill = true <;> simp [clientConnected, lastWill, h]

/-- The packet that publishes a last will. -/
theorem lastWill_eq_some {maxRetries : Nat} {connect : Connect} {p : Publish}
    (h : (clientConnected maxRetries connect).lastWill = some p) :
    ∃ hwill : connect.containsLastWill = true,
      p = Publish.create false connect.lastWillQos false (connect.lastWillTopic hwill) 0x0000
        (connect.lastWillMessage hwill) := by
  by_cases hwill : connect.containsLastWill = true
  · simp only [lastWill, clientConnected, dif_pos hwill, Option.map_some, Option.some.injEq] at h
    exact ⟨hwill, h.symm⟩
  · simp [lastWill, clientConnected, hwill] at h

/-- A session answers with the calls of one of its tables, which takes the place of the former
one. -/
theorem bind_answer_eq_ok_iff {τ : Type} (withTable : τ → MqttClientSession)
    {answer : Except Fault (List SenderCall × τ)} {calls : List SenderCall}
    {s' : MqttClientSession} :
    (answer >>= fun r => pure (r.1, withTable r.2)) = .ok (calls, s') ↔
      ∃ t, answer = .ok (calls, t) ∧ s' = withTable t := by
  rw [bind_eq_ok_iff]
  constructor
  · rintro ⟨⟨calls', t⟩, ht, hresult⟩
    cases hresult
    exact ⟨t, ht, rfl⟩
  · rintro ⟨t, ht, rfl⟩
    exact ⟨_, ht, rfl⟩

/-- A handler, which may not be queued, is answered by the table of a session. -/
theorem map_answer_eq_some_iff {τ : Type} (withTable : τ → MqttClientSession)
    {answer : Option (Except Fault (List SenderCall × τ))} {calls : List SenderCall}
    {s' : MqttClientSession} :
    answer.map (Except.map fun (calls, t) => (calls, withTable t)) = some (.ok (calls, s')) ↔
      ∃ t, answer = some (.ok (calls, t)) ∧ s' = withTable t := by
  rw [Option.map_eq_some_iff]
  constructor
  · rintro ⟨result, ht, hresult⟩
    cases result with
    | error f => cases hresult
    | ok r =>
        cases hresult
        exact ⟨r.2, ht, rfl⟩
  · rintro ⟨t, ht, rfl⟩
    exact ⟨_, ht, rfl⟩

/-- Publishing to a client changes the publications sent to it. -/
theorem publish_eq_ok_iff {connected : Bool} {p p' : Publish} {qos : QoS}
    {calls : List SenderCall} {s' : MqttClientSession} :
    s.publish connected p qos = .ok (calls, p', s') ↔
      ∃ t, s.txInFlightPublications.publish connected p qos = .ok (calls, p', t) ∧
        s' = s.withTx t := by
  rw [publish, bind_eq_ok_iff]
  constructor
  · rintro ⟨⟨calls', p'', t⟩, ht, hresult⟩
    cases hresult
    exact ⟨t, ht, rfl⟩
  · rintro ⟨t, ht, rfl⟩
    exact ⟨_, ht, rfl⟩

/-- A response of the client changes the publications sent to it. -/
theorem responseReceived_eq_ok_iff {connected : Bool} {ack : PublishAck}
    {calls : List SenderCall} {s' : MqttClientSession} :
    s.responseReceived connected ack = .ok (calls, s') ↔
      ∃ t, s.txInFlightPublications.responseReceived connected ack = .ok (calls, t) ∧
        s' = s.withTx t :=
  bind_answer_eq_ok_iff s.withTx

/-- What a client publishes changes the publications received from it. -/
theorem clientSentPublish_eq_ok_iff {connected b : Bool} {p : Publish}
    {calls : List SenderCall} {s' : MqttClientSession} :
    s.clientSentPublish connected p = .ok (b, calls, s') ↔
      ∃ t, s.rxInFlightPublications.clientSentPublish connected p = .ok (b, calls, t) ∧
        s' = s.withRx t := by
  rw [clientSentPublish, bind_eq_ok_iff]
  constructor
  · rintro ⟨⟨b', calls', t⟩, ht, hresult⟩
    cases hresult
    exact ⟨t, ht, rfl⟩
  · rintro ⟨t, ht, rfl⟩
    exact ⟨_, ht, rfl⟩

/-- A PUBREL changes the publications received from the client. -/
theorem clientReleasedPublish_eq_ok_iff {connected : Bool} {i : UInt16}
    {calls : List SenderCall} {s' : MqttClientSession} :
    s.clientReleasedPublish connected i = .ok (calls, s') ↔
      ∃ t, s.rxInFlightPublications.clientSentPubrel connected i = .ok (calls, t) ∧
        s' = s.withRx t :=
  bind_answer_eq_ok_iff s.withRx

/-- A timer of an outgoing publication changes the publications sent to the client. -/
theorem txTimerElapses_eq_some_iff {i : UInt16} {s' : MqttClientSession} :
    s.txTimerElapses i = some s' ↔
      ∃ t, s.txInFlightPublications.timerElapses i = some t ∧ s' = s.withTx t := by
  rw [txTimerElapses, Option.map_eq_some_iff]
  simp only [eq_comm]

/-- The handler of an outgoing publication's timer changes the publications sent to the client. -/
theorem txTimeout_eq_ok_iff {i : UInt16} {calls : List SenderCall} {s' : MqttClientSession} :
    s.txTimeout i = some (.ok (calls, s')) ↔
      ∃ t, s.txInFlightPublications.timeout i = some (.ok (calls, t)) ∧ s' = s.withTx t :=
  map_answer_eq_some_iff s.withTx

/-- A timer of an incoming publication changes the publications received from the
client. -/
theorem rxTimerElapses_eq_some_iff {i : UInt16} {s' : MqttClientSession} :
    s.rxTimerElapses i = some s' ↔
      ∃ t, s.rxInFlightPublications.timerElapses i = some t ∧ s' = s.withRx t := by
  rw [rxTimerElapses, Option.map_eq_some_iff]
  simp only [eq_comm]

/-- The handler of an incoming publication's timer changes the publications received from the
client. -/
theorem rxTimeout_eq_ok_iff {i : UInt16} {calls : List SenderCall} {s' : MqttClientSession} :
    s.rxTimeout i = some (.ok (calls, s')) ↔
      ∃ t, s.rxInFlightPublications.timeout i = some (.ok (calls, t)) ∧ s' = s.withRx t :=
  map_answer_eq_some_iff s.withRx

/-- Publishing to a client does not concern what the client publishes. -/
theorem publish_frame {connected : Bool} {p p' : Publish} {qos : QoS}
    {calls : List SenderCall} {s' : MqttClientSession}
    (h : s.publish connected p qos = .ok (calls, p', s')) :
    s'.rxInFlightPublications = s.rxInFlightPublications := by
  rcases publish_eq_ok_iff.mp h with ⟨t, -, rfl⟩
  rfl

/-- Responses of a client do not concern what the client publishes. -/
theorem responseReceived_frame {connected : Bool} {ack : PublishAck}
    {calls : List SenderCall} {s' : MqttClientSession}
    (h : s.responseReceived connected ack = .ok (calls, s')) :
    s'.rxInFlightPublications = s.rxInFlightPublications := by
  rcases responseReceived_eq_ok_iff.mp h with ⟨t, -, rfl⟩
  rfl

/-- Timers of outgoing publications do not concern what the client publishes. -/
theorem txTimerElapses_frame {i : UInt16} {s' : MqttClientSession}
    (h : s.txTimerElapses i = some s') :
    s'.rxInFlightPublications = s.rxInFlightPublications := by
  rcases txTimerElapses_eq_some_iff.mp h with ⟨t, -, rfl⟩
  rfl

/-- Handlers of these timers do not concern it either. -/
theorem txTimeout_frame {i : UInt16} {calls : List SenderCall} {s' : MqttClientSession}
    (h : s.txTimeout i = some (.ok (calls, s'))) :
    s'.rxInFlightPublications = s.rxInFlightPublications := by
  rcases txTimeout_eq_ok_iff.mp h with ⟨t, -, rfl⟩
  rfl

/-- What a client publishes does not concern the publications sent to it. -/
theorem clientSentPublish_frame {connected b : Bool} {p : Publish}
    {calls : List SenderCall} {s' : MqttClientSession}
    (h : s.clientSentPublish connected p = .ok (b, calls, s')) :
    s'.txInFlightPublications = s.txInFlightPublications := by
  rcases clientSentPublish_eq_ok_iff.mp h with ⟨t, -, rfl⟩
  rfl

end MqttClientSession

end Dispatch
end WallyIo
