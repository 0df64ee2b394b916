import WallyIo.Dispatch.ClientSession
import WallyIo.Dispatch.RetainedMessages
import WallyIo.Library.Machine

/-!
# The session manager

The session manager keeps the sessions of all clients under their client identifiers, and
beside them the subscriptions and the retained messages.  It hands a PUBLISH to the
session of every subscriber.

Main results:

- Definition {lit}`SessionManager.perform`: the answer to one event.
- Definition {lit}`SessionManager.handlePacketReceived`: the event that a packet stands for.
- Theorem {lit}`SessionManager.lookup_update`: a session that is changed leaves the others
  alone.
-/

namespace WallyIo
namespace Dispatch

open Protocol Library

/-! ## State -/

/-- Connections are numbered in the order in which they are accepted. -/
abbrev ConnectionId := Nat

/-- What a session sees of the connections: nothing of an object that is gone, else its
client identifier. -/
abbrev Connections := ConnectionId → Option (Option Bytes)

/-- A session, with the connection that it has been created for. -/
structure SessionEntry where
  connection : ConnectionId
  session : MqttClientSession

/-- What the session manager does besides changing its state. -/
inductive Effect
  /-- The session of a client makes a call on its connection. -/
  | call (clientId : Bytes) (connection : ConnectionId) (call : SenderCall)
  /-- A packet is published to all subscribers. -/
  | publish (publish : Publish)
deriving DecidableEq, Repr

/-- The PUBLISH packets that are sent to a client. -/
def publishesTo (clientId : Bytes) (effects : List Effect) : List Publish :=
  effects.filterMap fun
    | .call x _ (.send (.publish p)) => if x = clientId then some p else none
    | _ => none

/-- The session manager. -/
structure SessionManager where
  maxRetries : Nat
  topicSubscriptions : TopicSubscriptions
  sessions : Table Bytes SessionEntry
  retainedMessages : RetainedMessages

namespace SessionManager

/-- The constructor. -/
def create (maxRetries : Nat) : SessionManager where
  maxRetries := maxRetries
  topicSubscriptions := TopicSubscriptions.empty
  sessions := Table.empty
  retainedMessages := RetainedMessages.empty

variable (m : SessionManager) (connections : Connections)

/-- The calls of a session on its connection. -/
def callsOf (clientId : Bytes) (entry : SessionEntry) (calls : List SenderCall) :
    List Effect :=
  calls.map (.call clientId entry.connection)

/-- Whether the connection of a session still exists. -/
def connected (entry : SessionEntry) : Bool := (connections entry.connection).isSome

/-- Create a session for a connection, unless the connection is gone or its client has a
session already.  The result tells whether the session has been stored. -/
def insert (connect : Connect) (connection : ConnectionId) :
    Except Fault (Bool × SessionManager) :=
  match connections connection with
  | some (some clientId) =>
      let session := MqttClientSession.clientConnected m.maxRetries connect
      let (sessions, stored) := m.sessions.emplace clientId ⟨connection, session⟩
      .ok (stored, { m with sessions := sessions })
  | some none => .error .assertion
  | none => .ok (false, m)

/-- Remove the session of a client. -/
def remove (clientId : Bytes) : SessionManager :=
  { m with sessions := m.sessions.erase clientId }

/-- The session object of a client has changed. -/
def update (clientId : Bytes) (session : MqttClientSession) : SessionManager :=
  match m.sessions.lookup clientId with
  | some entry =>
      { m with sessions := m.sessions.insert clientId { entry with session := session } }
  | none => m

/-! ## Operations -/

/-- A client has connected.  The result of the insertion is only logged. -/
def clientConnected (connect : Connect) (connection : ConnectionId) :
    Except Fault SessionManager := do
  let (_, m) ← m.insert connections connect connection
  return m

/-- A client has disconnected. -/
def clientDisconnected (clientId : Bytes) (_reason : DisconnectReason) : SessionManager :=
  m.remove clientId

/-- A session asks to be destroyed. -/
def destroy (clientId : Bytes) : SessionManager := m.remove clientId

/-- Destroy all sessions. -/
def destroyAll : SessionManager := { m with sessions := Table.empty }

/-- The session of a client sends a packet, or is destroyed if its connection is gone. -/
def send (clientId : Bytes) (entry : SessionEntry) (packet : MqttPacket) :
    List Effect × SessionManager :=
  if connected connections entry then (callsOf clientId entry [.send packet], m)
  else ([], m.destroy entry.session.clientId)

/-- The loop over the subscribers of a packet.  All of them are handed the same object.  The packet
must not become too long for any of them, or the {lit}`send` that encodes it ends the loop. -/
def publishTo : List (Bytes × QoS) → Publish → SessionManager →
    Except Fault (List Effect × Publish × SessionManager)
  | [], incomingPublish, m => .ok ([], incomingPublish, m)
  | subscriber :: rest, incomingPublish, m =>
      match m.sessions.lookup subscriber.1 with
      | some entry => do
          let (calls, incomingPublish, session) ←
            entry.session.publish (connected connections entry) incomingPublish subscriber.2
          let (effects, incomingPublish, m) ←
            publishTo rest incomingPublish (m.update subscriber.1 session)
          return (callsOf subscriber.1 entry calls ++ effects, incomingPublish, m)
      | none => publishTo rest incomingPublish m

/-- Publish a packet to all subscribers. -/
def publish (incomingPublish : Publish) :
    Except Fault (List Effect × Publish × SessionManager) := do
  let (effects, published, m) ←
    publishTo connections (m.topicSubscriptions.resolveSubscribers incomingPublish)
      incomingPublish m
  return (.publish incomingPublish :: effects, published, m)

/-- The loop over the retained messages for a SUBSCRIBE.  None of them must become too long. -/
def publishRetained (connected : Bool) : List (Publish × QoS) → RetainedMessages →
    MqttClientSession →
      Except Fault (List SenderCall × RetainedMessages × MqttClientSession)
  | [], retainedMessages, session => .ok ([], retainedMessages, session)
  | (retainedMessage, qos) :: rest, retainedMessages, session => do
      assert retainedMessage.retain
      let (calls, retainedMessage, session) ← session.publish connected retainedMessage qos
      let (moreCalls, retainedMessages, session) ←
        publishRetained connected rest (retainedMessages.update retainedMessage) session
      return (calls ++ moreCalls, retainedMessages, session)

/-- A client has subscribed. -/
def clientSubscribed (clientId : Bytes) (subscribe : Subscribe) :
    Except Fault (List Effect × SessionManager) := do
  let (suback, topicSubscriptions) := m.topicSubscriptions.subscribe clientId subscribe
  let m := { m with topicSubscriptions := topicSubscriptions }
  match m.sessions.lookup clientId with
  | some entry =>
      let (effects, m) := m.send connections clientId entry (.suback suback)
      let (calls, retainedMessages, session) ←
        publishRetained (connected connections entry)
          (m.retainedMessages.messagesFor subscribe) m.retainedMessages entry.session
      return (effects ++ callsOf clientId entry calls,
        { m.update clientId session with retainedMessages := retainedMessages })
  | none => return ([], m)

/-- A client has unsubscribed. -/
def clientUnsubscribed (clientId : Bytes) (unsubscribe : Unsubscribe) :
    List Effect × SessionManager :=
  let (unsuback, topicSubscriptions) :=
    m.topicSubscriptions.unsubscribe clientId unsubscribe
  let m := { m with topicSubscriptions := topicSubscriptions }
  match m.sessions.lookup clientId with
  | some entry => m.send connections clientId entry (.unsuback unsuback)
  | none => ([], m)

/-- The session of a client receives a PUBLISH, and may have it published. -/
def clientSentPublish (clientId : Bytes) (entry : SessionEntry) (incomingPublish : Publish) :
    Except Fault (List Effect × Publish × SessionManager) := do
  let (dispatchPublish, calls, session) ←
    entry.session.clientSentPublish (connected connections entry) incomingPublish
  let m := m.update clientId session
  if dispatchPublish then
    let (effects, incomingPublish, m) ← m.publish connections incomingPublish
    return (callsOf clientId entry calls ++ effects, incomingPublish, m)
  else
    return (callsOf clientId entry calls, incomingPublish, m)

/-- A client has published a packet.  While it is published its RETAIN flag is cleared. -/
def clientPublished (clientId : Bytes) (incomingPublish : Publish) :
    Except Fault (List Effect × SessionManager) := do
  match m.sessions.lookup clientId with
  | some entry =>
      if incomingPublish.retain then
        let (effects, incomingPublish, m) ←
          m.clientSentPublish connections clientId entry (incomingPublish.setRetain false)
        let retainedMessages ← m.retainedMessages.retain (incomingPublish.setRetain true)
        return (effects, { m with retainedMessages := retainedMessages })
      else
        let (effects, _, m) ← m.clientSentPublish connections clientId entry incomingPublish
        return (effects, m)
  | none => return ([], m)

/-- The session of a client, if there is one, answers an event. -/
def onSession (clientId : Bytes)
    (answer : Bool → MqttClientSession → Except Fault (List SenderCall × MqttClientSession)) :
    Except Fault (List Effect × SessionManager) := do
  match m.sessions.lookup clientId with
  | some entry =>
      let (calls, session) ← answer (connected connections entry) entry.session
      return (callsOf clientId entry calls, m.update clientId session)
  | none => return ([], m)

/-- A client has sent a PUBACK. -/
def clientAckedPublish (clientId : Bytes) (packetIdentifier : UInt16) :
    Except Fault (List Effect × SessionManager) :=
  m.onSession connections clientId fun connected session =>
    session.clientAckedPublish connected packetIdentifier

/-- A client has sent a PUBREC. -/
def clientReceivedPublish (clientId : Bytes) (packetIdentifier : UInt16) :
    Except Fault (List Effect × SessionManager) :=
  m.onSession connections clientId fun connected session =>
    session.clientReceivedPublish connected packetIdentifier

/-- A client has sent a PUBREL. -/
def clientReleasedPublish (clientId : Bytes) (packetIdentifier : UInt16) :
    Except Fault (List Effect × SessionManager) :=
  m.onSession connections clientId fun connected session =>
    session.clientReleasedPublish connected packetIdentifier

/-- A client has sent a PUBCOMP. -/
def clientCompletedPublish (clientId : Bytes) (packetIdentifier : UInt16) :
    Except Fault (List Effect × SessionManager) :=
  m.onSession connections clientId fun connected session =>
    session.clientCompletedPublish connected packetIdentifier

/-- A client has gone without a DISCONNECT.  Its session is removed before the last will is
published. -/
def clientDisconnectedUngracefully (clientId : Bytes) (_reason : DisconnectReason) :
    Except Fault (List Effect × SessionManager) := do
  match m.sessions.lookup clientId with
  | some entry =>
      let m := m.remove clientId
      match entry.session.lastWill with
      | some lwtPublish =>
          let (effects, _, m) ← m.publish connections lwtPublish
          return (effects, m)
      | none => return ([], m)
  | none => return ([], m)

/-- A timer of a client's session elapses.  The timers of a session that has been removed
do nothing. -/
def timerElapses (clientId : Bytes)
    (elapses : MqttClientSession → Option MqttClientSession) : Option SessionManager :=
  match m.sessions.lookup clientId with
  | some entry => (elapses entry.session).map (m.update clientId)
  | none => none

/-- A queued handler of a timer of a client's session runs. -/
def timeout (clientId : Bytes)
    (handler : MqttClientSession →
      Option (Except Fault (List SenderCall × MqttClientSession))) :
    Option (Except Fault (List Effect × SessionManager)) :=
  match m.sessions.lookup clientId with
  | some entry => (handler entry.session).map (Except.map fun (calls, session) =>
      (callsOf clientId entry calls, m.update clientId session))
  | none => none

/-! ## Events -/

/-- What happens to the session manager. -/
inductive Event
  | clientConnected (connect : Connect) (connection : ConnectionId)
  | clientDisconnected (clientId : Bytes) (reason : DisconnectReason)
  | clientSubscribed (clientId : Bytes) (subscribe : Subscribe)
  | clientUnsubscribed (clientId : Bytes) (unsubscribe : Unsubscribe)
  | clientPublished (clientId : Bytes) (publish : Publish)
  | clientAcked (clientId : Bytes) (ack : PublishAck)
  | clientDisconnectedUngracefully (clientId : Bytes) (reason : DisconnectReason)
  | destroy (clientId : Bytes)
  | txTimerElapses (clientId : Bytes) (packetIdentifier : UInt16)
  | txTimeout (clientId : Bytes) (packetIdentifier : UInt16)
  | rxTimerElapses (clientId : Bytes) (packetIdentifier : UInt16)
  | rxTimeout (clientId : Bytes) (packetIdentifier : UInt16)
  /-- The hashed subscriptions are visited in another order from now on. -/
  | subscriptionsReordered (order : List SubscriptionContainer)
  /-- The hashed messages are visited in another order from now on. -/
  | messagesReordered (order : List Publish)
deriving DecidableEq, Repr

/-- A client has sent one of the four acknowledgements. -/
def clientAcked (clientId : Bytes) : PublishAck → Except Fault (List Effect × SessionManager)
  | .puback i => m.clientAckedPublish connections clientId i
  | .pubrec i => m.clientReceivedPublish connections clientId i
  | .pubrel i => m.clientReleasedPublish connections clientId i
  | .pubcomp i => m.clientCompletedPublish connections clientId i

/-- One event.  Which connections exist is decided when they are used. -/
def perform : Event → Option (Except Fault (List Effect × SessionManager))
  | .clientConnected connect connection =>
      some ((m.clientConnected connections connect connection).map fun m => ([], m))
  | .clientDisconnected clientId reason => some (.ok ([], m.clientDisconnected clientId reason))
  | .clientSubscribed clientId subscribe =>
      some (m.clientSubscribed connections clientId subscribe)
  | .clientUnsubscribed clientId unsubscribe =>
      some (.ok (m.clientUnsubscribed connections clientId unsubscribe))
  | .clientPublished clientId p => some (m.clientPublished connections clientId p)
  | .clientAcked clientId ack => some (m.clientAcked connections clientId ack)
  | .clientDisconnectedUngracefully clientId reason =>
      some (m.clientDisconnectedUngracefully connections clientId reason)
  | .destroy clientId => some (.ok ([], m.destroy clientId))
  | .txTimerElapses clientId i =>
      (m.timerElapses clientId (·.txTimerElapses i)).map fun m => .ok ([], m)
  | .txTimeout clientId i => m.timeout clientId (·.txTimeout i)
  | .rxTimerElapses clientId i =>
      (m.timerElapses clientId (·.rxTimerElapses i)).map fun m => .ok ([], m)
  | .rxTimeout clientId i => m.timeout clientId (·.rxTimeout i)
  | .subscriptionsReordered order =>
      if h : order.Perm m.topicSubscriptions.subscriptions then
        some (.ok ([], { m with topicSubscriptions := m.topicSubscriptions.reorder order h }))
      else none
  | .messagesReordered order =>
      if h : order.Perm m.retainedMessages.messages then
        some (.ok ([], { m with retainedMessages := m.retainedMessages.reorder order h }))
      else none

/-- The machine of the session manager. -/
def machine : Machine (Option SessionManager) (Connections × Event)
    (Except Fault (List Effect)) :=
  Machine.ofFallible fun m e => m.perform e.1 e.2

/-- Executed steps of the machine. -/
abbrev ManagerStep :=
  Step (Option SessionManager) (Connections × Event) (Except Fault (List Effect))

/-- {lit}`dispatcher::handle_packet_received`: which operation a packet is passed on to. -/
def handlePacketReceived (container : PacketContainer) (rxConnection : ConnectionId) :
    Except Fault Event :=
  match container.packet with
  | .connect connect => do
      -- retained last wills are not supported
      assert (!connect.containsLastWill || !connect.retainLastWill)
      return .clientConnected connect rxConnection
  | .disconnect => .ok (.clientDisconnected container.clientId container.disconnectReason)
  | .subscribe subscribe => .ok (.clientSubscribed container.clientId subscribe)
  | .unsubscribe unsubscribe => .ok (.clientUnsubscribed container.clientId unsubscribe)
  | .publish p => .ok (.clientPublished container.clientId p)
  | .publishAck ack => .ok (.clientAcked container.clientId ack)
  | .connack _ | .suback _ | .unsuback _ | .pingreq | .pingresp => .error .assertion

/-! ## What is sent -/

@[simp]
theorem publishesTo_nil (x : Bytes) : publishesTo x [] = [] := rfl

@[simp]
theorem publishesTo_append (x : Bytes) (effects more : List Effect) :
    publishesTo x (effects ++ more) = publishesTo x effects ++ publishesTo x more :=
  List.filterMap_append

@[simp]
theorem publishesTo_publish (x : Bytes) (p : Publish) (effects : List Effect) :
    publishesTo x (.publish p :: effects) = publishesTo x effects := rfl

/-- A client is sent what its session sends. -/
theorem mem_publishesTo_iff {x : Bytes} {effects : List Effect} {p : Publish} :
    p ∈ publishesTo x effects ↔ ∃ k, .call x k (.send (.publish p)) ∈ effects := by
  rw [publishesTo, List.mem_filterMap]
  constructor
  · rintro ⟨effect, hmem, hsome⟩
    split at hsome
    · rename_i y k p'
      split at hsome
      · rename_i hxy
        cases hsome
        exact ⟨k, hxy ▸ hmem⟩
      · cases hsome
    · cases hsome
  · rintro ⟨k, hmem⟩
    exact ⟨_, hmem, if_pos rfl⟩

/-- A call of a session is one of its connection. -/
theorem mem_callsOf_iff {x y : Bytes} {k : ConnectionId} {call : SenderCall}
    {entry : SessionEntry} {calls : List SenderCall} :
    .call x k call ∈ callsOf y entry calls ↔ x = y ∧ k = entry.connection ∧ call ∈ calls := by
  rw [callsOf, List.mem_map]
  constructor
  · rintro ⟨call', hcall, heq⟩
    cases heq
    exact ⟨rfl, rfl, hcall⟩
  · rintro ⟨rfl, rfl, hcall⟩
    exact ⟨call, hcall, rfl⟩

/-- A session sends packets to its own client. -/
theorem mem_publishesTo_callsOf_iff {x y : Bytes} {p : Publish} {entry : SessionEntry}
    {calls : List SenderCall} :
    p ∈ publishesTo x (callsOf y entry calls) ↔ x = y ∧ .publish p ∈ sentPackets calls := by
  rw [mem_publishesTo_iff]
  simp only [mem_callsOf_iff, sentPackets, List.mem_filterMap]
  constructor
  · rintro ⟨k, hxy, -, hmem⟩
    exact ⟨hxy, _, hmem, rfl⟩
  · rintro ⟨hxy, call, hmem, hsent⟩
    cases call with
    | send packet =>
        cases hsent
        exact ⟨_, hxy, rfl, hmem⟩
    | stop message => cases hsent

/-- Clients of other sessions are sent nothing. -/
theorem publishesTo_callsOf_of_ne {x y : Bytes} (hxy : x ≠ y) (entry : SessionEntry)
    (calls : List SenderCall) : publishesTo x (callsOf y entry calls) = [] := by
  rw [List.eq_nil_iff_forall_not_mem]
  intro p hp
  exact hxy (mem_publishesTo_callsOf_iff.mp hp).1

/-- A session that sends no PUBLISH does not send one to its client. -/
theorem publishesTo_callsOf_of_quiet {x y : Bytes} {entry : SessionEntry}
    {calls : List SenderCall} (hcalls : ∀ p, .publish p ∉ sentPackets calls) :
    publishesTo x (callsOf y entry calls) = [] := by
  rw [List.eq_nil_iff_forall_not_mem]
  intro p hp
  exact hcalls p (mem_publishesTo_callsOf_iff.mp hp).2

/-! ## What the operations do -/

section Lemmas

variable {m} {connections} {clientId : Bytes} {entry : SessionEntry}

/-- Lookup after a session has changed. -/
theorem lookup_update (session : MqttClientSession) (x : Bytes) :
    (m.update clientId session).sessions.lookup x =
      if x = clientId then
        (m.sessions.lookup x).map fun entry => { entry with session := session }
      else m.sessions.lookup x := by
  unfold update
  by_cases hx : x = clientId
  · subst hx
    cases hentry : m.sessions.lookup x with
    | none => simp [hentry]
    | some entry => simp
  · cases hentry : m.sessions.lookup clientId with
    | none => simp [hx]
    | some entry => simp [hx]

/-- Lookup of the session that has changed. -/
theorem lookup_update_self (hentry : m.sessions.lookup clientId = some entry)
    (session : MqttClientSession) :
    (m.update clientId session).sessions.lookup clientId =
      some { entry with session := session } := by
  rw [lookup_update, if_pos rfl, hentry, Option.map_some]

/-- An update of one session leaves the others unchanged. -/
theorem lookup_update_of_ne (session : MqttClientSession) {x : Bytes} (h : x ≠ clientId) :
    (m.update clientId session).sessions.lookup x = m.sessions.lookup x := by
  rw [lookup_update, if_neg h]

@[simp]
theorem topicSubscriptions_update (session : MqttClientSession) :
    (m.update clientId session).topicSubscriptions = m.topicSubscriptions := by
  unfold update
  split <;> rfl

@[simp]
theorem retainedMessages_update (session : MqttClientSession) :
    (m.update clientId session).retainedMessages = m.retainedMessages := by
  unfold update
  split <;> rfl

@[simp]
theorem maxRetries_update (session : MqttClientSession) :
    (m.update clientId session).maxRetries = m.maxRetries := by
  unfold update
  split <;> rfl

@[simp]
theorem sessions_remove : (m.remove clientId).sessions = m.sessions.erase clientId := rfl

/-- Two managers with the same parts are the same. -/
theorem ext_of {m m' : SessionManager} (hretries : m.maxRetries = m'.maxRetries)
    (hsubscriptions : m.topicSubscriptions = m'.topicSubscriptions)
    (hsessions : ∀ x, m.sessions.lookup x = m'.sessions.lookup x)
    (hretained : m.retainedMessages = m'.retainedMessages) : m = m' := by
  cases m
  cases m'
  simp only at hretries hsubscriptions hretained
  subst hretries hsubscriptions hretained
  congr 1
  exact funext hsessions

/-- Of two changes of one session the second one remains. -/
theorem update_update (session session' : MqttClientSession) :
    (m.update clientId session).update clientId session' = m.update clientId session' := by
  apply ext_of
  · simp
  · simp
  · intro x
    by_cases hx : x = clientId
    · subst hx
      simp only [lookup_update, if_true, Option.map_map, Function.comp_def]
    · simp only [lookup_update_of_ne _ hx]
  · simp

/-- A session that is what it was changes nothing. -/
theorem update_of_lookup (hentry : m.sessions.lookup clientId = some entry) :
    m.update clientId entry.session = m := by
  apply ext_of
  · simp
  · simp
  · intro x
    rw [lookup_update]
    split
    · rename_i hx
      rw [hx, hentry, Option.map_some]
    · rfl
  · simp

/-- Sessions and retained messages are changed independently. -/
theorem update_withRetained (retainedMessages : RetainedMessages) (session : MqttClientSession) :
    ({ m with retainedMessages := retainedMessages } : SessionManager).update clientId session =
      { m.update clientId session with retainedMessages := retainedMessages } := by
  unfold update
  simp only
  split <;> rfl

/-- Without a session there is nothing to change. -/
theorem update_of_none (hentry : m.sessions.lookup clientId = none)
    (session : MqttClientSession) : m.update clientId session = m := by
  rw [update, hentry]

/-- What the loop over the subscribers does for one that has a session. -/
theorem publishTo_cons_eq_ok_iff {x : Bytes} {q : QoS} {rest : List (Bytes × QoS)}
    {p p' : Publish} {effects : List Effect} {m' : SessionManager}
    (hentry : m.sessions.lookup x = some entry) :
    publishTo connections ((x, q) :: rest) p m = .ok (effects, p', m') ↔
      ∃ calls p₁ session effects₁,
        entry.session.publish (connected connections entry) p q = .ok (calls, p₁, session) ∧
        publishTo connections rest p₁ (m.update x session) = .ok (effects₁, p', m') ∧
        effects = callsOf x entry calls ++ effects₁ := by
  simp only [publishTo, hentry, bind_eq_ok_iff]
  constructor
  · rintro ⟨⟨calls, p₁, session⟩, hpublish, ⟨effects₁, p₂, m₂⟩, hrest, hresult⟩
    cases hresult
    exact ⟨calls, p₁, session, effects₁, hpublish, hrest, rfl⟩
  · rintro ⟨calls, p₁, session, effects₁, hpublish, hrest, rfl⟩
    exact ⟨_, hpublish, _, hrest, rfl⟩

/-- A subscriber without a session is passed over. -/
theorem publishTo_cons_of_none {x : Bytes} {q : QoS} {rest : List (Bytes × QoS)} {p : Publish}
    (hnone : m.sessions.lookup x = none) :
    publishTo connections ((x, q) :: rest) p m = publishTo connections rest p m := by
  simp only [publishTo, hnone]

/-- What the loop over the subscribers preserves, given the effects so far. -/
theorem publishTo_invariant {subscribers : List (Bytes × QoS)} {p p' : Publish}
    {effects : List Effect} {m' : SessionManager}
    (inv : List Effect → Publish → SessionManager → Prop) (pre : List Effect)
    (preserved : ∀ pre p m x q entry calls p' session, inv pre p m → (x, q) ∈ subscribers →
      m.sessions.lookup x = some entry →
        entry.session.publish (connected connections entry) p q = .ok (calls, p', session) →
          inv (pre ++ callsOf x entry calls) p' (m.update x session))
    (init : inv pre p m)
    (h : publishTo connections subscribers p m = .ok (effects, p', m')) :
    inv (pre ++ effects) p' m' := by
  induction subscribers generalizing pre p m effects with
  | nil =>
      cases h
      rw [List.append_nil]
      exact init
  | cons subscriber rest ih =>
      rcases subscriber with ⟨x, q⟩
      have hrest : ∀ {pre p m effects}, inv pre p m →
          publishTo connections rest p m = .ok (effects, p', m') → inv (pre ++ effects) p' m' :=
        fun hinv hloop => ih _ (fun pre p m x q entry calls p' session hinv hmem =>
          preserved pre p m x q entry calls p' session hinv (List.mem_cons_of_mem _ hmem))
          hinv hloop
      cases hentry : m.sessions.lookup x with
      | none =>
          rw [publishTo_cons_of_none hentry] at h
          exact hrest init h
      | some entry =>
          rcases (publishTo_cons_eq_ok_iff hentry).mp h with
            ⟨calls, p₁, session, effects₁, hpublish, hloop, rfl⟩
          have hnext := preserved pre p m x q entry calls p₁ session init (by simp) hentry hpublish
          rw [← List.append_assoc]
          exact hrest hnext hloop

/-! ## How the operations return -/

variable {effects : List Effect} {m' : SessionManager}

/-- A client that connects has a session created, unless there is one already or the connection
is gone. -/
theorem clientConnected_eq_ok_iff {connect : Connect} {connection : ConnectionId} :
    m.clientConnected connections connect connection = .ok m' ↔
      (∃ x, connections connection = some (some x) ∧ m.sessions.lookup x = none ∧
        m' = { m with sessions := (m.sessions.insert x
          ⟨connection, MqttClientSession.clientConnected m.maxRetries connect⟩) }) ∨
      (∃ x entry, connections connection = some (some x) ∧ m.sessions.lookup x = some entry ∧
        m' = m) ∨
      connections connection = none ∧ m' = m := by
  unfold clientConnected insert
  rcases hconnection : connections connection with _ | _ | x
  · simp [bind, Except.bind, pure, Except.pure, eq_comm]
  · simp [bind, Except.bind]
  · cases hentry : m.sessions.lookup x with
    | none =>
        simp [Table.emplace_eq_insert hentry, hentry, bind, Except.bind, pure, Except.pure, eq_comm]
    | some entry =>
        have hcontains := (m.sessions.contains_eq_true_iff x).mpr ⟨entry, hentry⟩
        simp [Table.emplace_of_contains hcontains, hentry, bind, Except.bind, pure, Except.pure]
        exact eq_comm

/-- A packet that is published is announced, and handed to the subscribers. -/
theorem publish_eq_ok_iff_publishTo {p p' : Publish} :
    m.publish connections p = .ok (effects, p', m') ↔
      ∃ calls, publishTo connections (m.topicSubscriptions.resolveSubscribers p) p m =
        .ok (calls, p', m') ∧ effects = .publish p :: calls := by
  unfold publish
  rw [bind_eq_ok_iff]
  constructor
  · rintro ⟨⟨calls, published, m''⟩, hloop, hresult⟩
    cases hresult
    exact ⟨calls, hloop, rfl⟩
  · rintro ⟨calls, hloop, rfl⟩
    exact ⟨_, hloop, rfl⟩

/-- The session of a client, if there is one, answers. -/
theorem onSession_eq_ok_iff
    {answer : Bool → MqttClientSession → Except Fault (List SenderCall × MqttClientSession)} :
    m.onSession connections clientId answer = .ok (effects, m') ↔
      (∃ entry calls session, m.sessions.lookup clientId = some entry ∧
        answer (connected connections entry) entry.session = .ok (calls, session) ∧
        effects = callsOf clientId entry calls ∧ m' = m.update clientId session) ∨
      m.sessions.lookup clientId = none ∧ effects = [] ∧ m' = m := by
  unfold onSession
  cases hentry : m.sessions.lookup clientId with
  | none => simp [pure, Except.pure, eq_comm]
  | some entry =>
      simp only [bind_eq_ok_iff]
      constructor
      · rintro ⟨⟨calls, session⟩, hanswer, hresult⟩
        cases hresult
        exact Or.inl ⟨entry, calls, session, rfl, hanswer, rfl, rfl⟩
      · rintro (⟨_, calls, session, hentry', hanswer, rfl, rfl⟩ | ⟨hnone, -⟩)
        · cases hentry'
          exact ⟨_, hanswer, rfl⟩
        · cases hnone

/-- A timer elapses in a session that there is. -/
theorem timerElapses_eq_some_iff {elapses : MqttClientSession → Option MqttClientSession} :
    m.timerElapses clientId elapses = some m' ↔
      ∃ entry session, m.sessions.lookup clientId = some entry ∧
        elapses entry.session = some session ∧ m' = m.update clientId session := by
  unfold timerElapses
  cases hentry : m.sessions.lookup clientId with
  | none => simp
  | some entry => simp [eq_comm]

/-- The handler of a timer runs in a session that there is. -/
theorem timeout_eq_ok_iff {handler : MqttClientSession →
      Option (Except Fault (List SenderCall × MqttClientSession))} :
    m.timeout clientId handler = some (.ok (effects, m')) ↔
      ∃ entry calls session, m.sessions.lookup clientId = some entry ∧
        handler entry.session = some (.ok (calls, session)) ∧
        effects = callsOf clientId entry calls ∧ m' = m.update clientId session := by
  unfold timeout
  cases hentry : m.sessions.lookup clientId with
  | none => simp
  | some entry =>
      rw [Option.map_eq_some_iff]
      constructor
      · rintro ⟨result, hhandler, hresult⟩
        obtain ⟨⟨calls, session⟩, rfl, hanswer⟩ := map_eq_ok_iff.mp hresult
        cases hanswer
        exact ⟨entry, calls, session, rfl, hhandler, rfl, rfl⟩
      · rintro ⟨_, calls, session, hentry', hhandler, rfl, rfl⟩
        cases hentry'
        exact ⟨_, hhandler, rfl⟩

/-- When a client has gone without a DISCONNECT, the last will is published by a session manager
that does not have its session any longer. -/
theorem clientDisconnectedUngracefully_eq_ok_iff {reason : DisconnectReason} :
    m.clientDisconnectedUngracefully connections clientId reason = .ok (effects, m') ↔
      (∃ entry lwt p, m.sessions.lookup clientId = some entry ∧
        entry.session.lastWill = some lwt ∧
        (m.remove clientId).publish connections lwt = .ok (effects, p, m')) ∨
      (∃ entry, m.sessions.lookup clientId = some entry ∧ entry.session.lastWill = none ∧
        effects = [] ∧ m' = m.remove clientId) ∨
      m.sessions.lookup clientId = none ∧ effects = [] ∧ m' = m := by
  unfold clientDisconnectedUngracefully
  cases hentry : m.sessions.lookup clientId with
  | none => simp [pure, Except.pure, eq_comm]
  | some entry =>
      cases hwill : entry.session.lastWill with
      | none => simp [hwill, pure, Except.pure, eq_comm]
      | some lwt => simp [hwill, bind_eq_ok_iff, pure, Except.pure]

end Lemmas

end SessionManager

end Dispatch
end WallyIo
