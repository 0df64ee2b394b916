import WallyIo.Dispatch.Delivery
import WallyIo.Dispatch.SessionManager
import WallyIo.Dispatch.TxTable
import WallyIo.Library.Trace

/-!
# What the session manager does

Every event of the session manager is a sequence of small acts: sessions are created and
removed, the two stores are changed, and single sessions send packets.  Invariants of the
session manager are invariants of these acts.

Main results:

- Theorem {lit}`trace_of_perform`: an event is a trace of acts.
- Theorem {lit}`fate_of_perform`: what becomes of the sessions.
- Theorem {lit}`call_of_perform`: which calls are made, and on which connection.
-/

namespace WallyIo
namespace Dispatch

open Protocol Library

/-! ## Sessions -/

namespace MqttClientSession

/-- A session answers an event that publishes nothing to its client. -/
inductive Advances (s : MqttClientSession) : List SenderCall → MqttClientSession → Prop
  /-- The publications sent to the client change. -/
  | tx (e : TxTable.Event) (he : e.isPublish = false) {calls : List SenderCall}
      {t : TxInFlightPublications}
      (h : TxTable.step s.txInFlightPublications e = some (.ok (calls, t))) :
      Advances s calls (s.withTx t)
  /-- The publications received from the client change. -/
  | rx {calls : List SenderCall} (hcalls : ∀ p, .publish p ∉ sentPackets calls)
      (t : RxInFlightPublications) : Advances s calls (s.withRx t)

variable {s s' : MqttClientSession} {calls : List SenderCall} {connected : Bool}

theorem advances_responseReceived {ack : PublishAck}
    (h : s.responseReceived connected ack = .ok (calls, s')) : s.Advances calls s' := by
  rcases responseReceived_eq_ok_iff.mp h with ⟨t, ht, rfl⟩
  refine .tx (.response connected ack) rfl ?_
  have hack := (assert_bind_eq_ok_iff.mp ht).1
  rw [TxTable.step, if_pos hack, ht]

theorem advances_txTimerElapses {i : UInt16} (h : s.txTimerElapses i = some s') :
    s.Advances [] s' := by
  rcases txTimerElapses_eq_some_iff.mp h with ⟨t, ht, rfl⟩
  refine .tx (.timerElapses i) rfl ?_
  rw [TxTable.step, ht, Option.map_some]

theorem advances_txTimeout {i : UInt16} (h : s.txTimeout i = some (.ok (calls, s'))) :
    s.Advances calls s' := by
  rcases txTimeout_eq_ok_iff.mp h with ⟨t, ht, rfl⟩
  exact .tx (.timeout i) rfl ht

/-- A publication that is not answered in time does not stop the connection. -/
theorem stops_txTimeout {i : UInt16} (h : s.txTimeout i = some (.ok (calls, s'))) :
    stops calls = false := by
  rcases txTimeout_eq_ok_iff.mp h with ⟨t, ht, -⟩
  exact TxInFlightPublications.stops_of_timeout ht

theorem advances_rxTimerElapses {i : UInt16} (h : s.rxTimerElapses i = some s') :
    s.Advances [] s' := by
  rcases rxTimerElapses_eq_some_iff.mp h with ⟨t, -, rfl⟩
  exact .rx (fun p => List.not_mem_nil) t

/-- The reactions of an incoming publication send no PUBLISH. -/
theorem advances_rxTimeout {i : UInt16} (h : s.rxTimeout i = some (.ok (calls, s'))) :
    s.Advances calls s' := by
  rcases rxTimeout_eq_ok_iff.mp h with ⟨t, ht, rfl⟩
  exact .rx (RxInFlightPublications.onlyAcks_of_timeout ht).not_publish t

theorem stops_rxTimeout {i : UInt16} (h : s.rxTimeout i = some (.ok (calls, s'))) :
    stops calls = false := by
  rcases rxTimeout_eq_ok_iff.mp h with ⟨t, ht, -⟩
  exact (RxInFlightPublications.onlyAcks_of_timeout ht).stops

theorem advances_clientReleasedPublish {i : UInt16}
    (h : s.clientReleasedPublish connected i = .ok (calls, s')) : s.Advances calls s' := by
  rcases clientReleasedPublish_eq_ok_iff.mp h with ⟨t, ht, rfl⟩
  exact .rx (fun p => RxInFlightPublications.not_publish_of_clientSentPubrel ht) t

/-- What a client publishes is answered by acknowledgements. -/
theorem onlyAcks_of_clientSentPublish {b : Bool} {p : Publish}
    (h : s.clientSentPublish connected p = .ok (b, calls, s')) : OnlyAcks calls := by
  rcases clientSentPublish_eq_ok_iff.mp h with ⟨t, ht, -⟩
  exact RxInFlightPublications.onlyAcks_of_clientSentPublish ht

theorem advances_clientSentPublish {b : Bool} {p : Publish}
    (h : s.clientSentPublish connected p = .ok (b, calls, s')) : s.Advances calls s' := by
  rcases clientSentPublish_eq_ok_iff.mp h with ⟨t, ht, rfl⟩
  exact .rx (RxInFlightPublications.onlyAcks_of_clientSentPublish ht).not_publish t

/-- A session keeps its client and its last will. -/
theorem Advances.same_client (h : s.Advances calls s') :
    s'.clientId = s.clientId ∧ s'.lwtMessage = s.lwtMessage := by
  cases h <;> exact ⟨rfl, rfl⟩

end MqttClientSession

/-! ## Acts -/

namespace SessionManager

/-- The client whose packet or timer an event comes from. -/
def Event.client : Event → Option Bytes
  | .clientConnected _ _ => none
  | .clientDisconnected clientId _ => some clientId
  | .clientSubscribed clientId _ => some clientId
  | .clientUnsubscribed clientId _ => some clientId
  | .clientPublished clientId _ => some clientId
  | .clientAcked clientId _ => some clientId
  | .clientDisconnectedUngracefully clientId _ => some clientId
  | .destroy clientId => some clientId
  | .txTimerElapses clientId _ => some clientId
  | .txTimeout clientId _ => some clientId
  | .rxTimerElapses clientId _ => some clientId
  | .rxTimeout clientId _ => some clientId
  | .subscriptionsReordered _ => none
  | .messagesReordered _ => none

/-- Whether an event may have packets handed to sessions. -/
def Event.hands : Event → Bool
  | .clientPublished _ _ => true
  | .clientDisconnectedUngracefully _ _ => true
  | .clientSubscribed _ _ => true
  | _ => false

/-- Whether an event is an acknowledgement.  No other event stops a connection. -/
def Event.isAck : Event → Bool
  | .clientAcked _ _ => true
  | _ => false

/-- Whether an event, should it return, removes the session of a client. -/
def Ends (m : SessionManager) (connections : Connections) (clientId : Bytes) : Event → Prop
  | .clientDisconnected x _ => x = clientId
  | .clientDisconnectedUngracefully x _ => x = clientId
  | .destroy x => x = clientId
  | .clientSubscribed x _ | .clientUnsubscribed x _ =>
      ∃ entry, m.sessions.lookup x = some entry ∧ connected connections entry = false ∧
        entry.session.clientId = clientId
  | _ => False

/-- The packets that an event hands to the session of a client, each with a quality of
service. -/
inductive Handed (m : SessionManager) : Event → Bytes → Publish → QoS → Prop
  /-- A client has published a packet. -/
  | published (sender : Bytes) (source p : Publish) (x : Bytes) (q : QoS)
      (hshared : Shared source p) (hretain : p.retain = false)
      (hsubscriber : (x, q) ∈ m.topicSubscriptions.resolveSubscribers source) :
      Handed m (.clientPublished sender source) x p q
  /-- The last will of a client is published. -/
  | lastWill (sender : Bytes) (reason : DisconnectReason) (entry : SessionEntry)
      (source p : Publish) (x : Bytes) (q : QoS)
      (hentry : m.sessions.lookup sender = some entry)
      (hwill : entry.session.lastWill = some source) (hshared : Shared source p)
      (hretain : p.retain = false)
      (hsubscriber : (x, q) ∈ m.topicSubscriptions.resolveSubscribers source) :
      Handed m (.clientDisconnectedUngracefully sender reason) x p q
  /-- A client has subscribed to the topic of a retained message. -/
  | retained (x : Bytes) (subscribe : Subscribe) (p : Publish) (q : QoS)
      (hmessage : (p, q) ∈ m.retainedMessages.messagesFor subscribe)
      (hretain : p.retain = true) : Handed m (.clientSubscribed x subscribe) x p q

variable (connections : Connections) (start : SessionManager) (event : Event)

/-- What the session manager may do while it processes an event that it has started to
process in some state. -/
inductive Act (m : SessionManager) : List Effect → SessionManager → Prop
  | created (connect : Connect) (connection : ConnectionId) (x : Bytes)
      (he : event = .clientConnected connect connection)
      (hx : connections connection = some (some x)) (hfree : m.sessions.lookup x = none) :
      Act m [] { m with
        sessions := m.sessions.insert x
          ⟨connection, MqttClientSession.clientConnected m.maxRetries connect⟩ }
  | removed (x : Bytes) (h : start.Ends connections x event) : Act m [] (m.remove x)
  | subscribed (x : Bytes) (subscribe : Subscribe) (he : event = .clientSubscribed x subscribe) :
      Act m [] { m with
        topicSubscriptions := (m.topicSubscriptions.subscribe x subscribe).2 }
  | unsubscribed (x : Bytes) (unsubscribe : Unsubscribe)
      (he : event = .clientUnsubscribed x unsubscribe) :
      Act m [] { m with
        topicSubscriptions := (m.topicSubscriptions.unsubscribe x unsubscribe).2 }
  | subscriptionsReordered (order : List SubscriptionContainer)
      (h : order.Perm m.topicSubscriptions.subscriptions) :
      Act m [] { m with topicSubscriptions := m.topicSubscriptions.reorder order h }
  | messagesReordered (order : List Publish) (h : order.Perm m.retainedMessages.messages) :
      Act m [] { m with retainedMessages := m.retainedMessages.reorder order h }
  /-- A session sends a SUBACK or UNSUBACK. -/
  | acknowledged (x : Bytes) (entry : SessionEntry) (packet : MqttPacket)
      (hx : event.client = some x) (hentry : m.sessions.lookup x = some entry)
      (hpacket : ∀ p, packet ≠ .publish p) : Act m (callsOf x entry [.send packet]) m
  /-- A session answers its client. -/
  | advanced (x : Bytes) (entry : SessionEntry) (calls : List SenderCall)
      (session : MqttClientSession) (hx : event.client = some x)
      (hentry : m.sessions.lookup x = some entry) (h : entry.session.Advances calls session)
      (hquiet : event.hands = true → ∀ p, .publish p ∉ sentPackets calls)
      (hstops : event.isAck = false → stops calls = false) :
      Act m (callsOf x entry calls) (m.update x session)
  /-- A packet is published. -/
  | announced (p : Publish) : Act m [.publish p] m
  /-- A session is handed a packet. -/
  | handed (x : Bytes) (entry : SessionEntry) (p : Publish) (q : QoS)
      (calls : List SenderCall) (p' : Publish) (session : MqttClientSession)
      (hentry : m.sessions.lookup x = some entry) (hp : start.Handed event x p q)
      (h : entry.session.publish (connected connections entry) p q = .ok (calls, p', session)) :
      Act m (callsOf x entry calls) (m.update x session)
  /-- A retained message has been handed to a session. -/
  | lowered (p p' : Publish) (hp : p ∈ start.retainedMessages.messages) (hshared : Shared p p')
      (hretain : p'.retain = true) :
      Act m [] { m with retainedMessages := m.retainedMessages.update p' }
  /-- A message is retained. -/
  | kept (sender : Bytes) (source p : Publish) (t : RetainedMessages)
      (he : event = .clientPublished sender source) (hshared : Shared source p)
      (hretain : m.retainedMessages.retain p = .ok t) :
      Act m [] { m with retainedMessages := t }

/-! ## Every event is a trace of acts -/

section Traces

variable {connections : Connections} {start m m' : SessionManager} {event : Event}
  {effects : List Effect}

/-- The object that is handed to a session is changed at most in its quality of
service. -/
theorem shared_of_publish {s s' : MqttClientSession} {isConnected : Bool} {p p' source : Publish}
    {q : QoS} {calls : List SenderCall} (hp : Shared source p)
    (h : s.publish isConnected p q = .ok (calls, p', s')) :
    Shared source p' ∧ p'.retain = p.retain := by
  rcases MqttClientSession.publish_eq_ok_iff.mp h with ⟨t, ht, -⟩
  cases TxInFlightPublications.publishes_of_publish ht with
  | nothing => exact ⟨hp, rfl⟩
  | itself outgoing hset => exact ⟨.lowered hp hset, (Publish.flags_of_setQos hset).2⟩
  | copy => exact ⟨hp, rfl⟩

variable (start event) in
/-- The loop over the subscribers hands the packet to one session after the other. -/
theorem trace_of_publishTo {subscribers : List (Bytes × QoS)} {source p p' : Publish}
    (hhanded : ∀ p x q, Shared source p → p.retain = false → (x, q) ∈ subscribers →
      start.Handed event x p q)
    (hp : Shared source p) (hretain : p.retain = false)
    (h : publishTo connections subscribers p m = .ok (effects, p', m')) :
    Trace (Act connections start event) m effects m' ∧ Shared source p' ∧
      p'.retain = false := by
  refine publishTo_invariant (fun pre p t =>
    Trace (Act connections start event) m pre t ∧ Shared source p ∧ p.retain = false) [] ?_
    ⟨Trace.nil m, hp, hretain⟩ h
  rintro pre p t x q entry calls p' session ⟨htrace, hp, hretain⟩ hmem hentry hpublish
  rcases shared_of_publish hp hpublish with ⟨hp', hretain'⟩
  exact ⟨htrace.snoc (.handed x entry p q calls p' session hentry
    (hhanded p x q hp hretain hmem) hpublish), hp', hretain'.trans hretain⟩

variable (start event) in
/-- Publishing a packet hands it to one session after the other. -/
theorem trace_of_publish {source p p' : Publish}
    (hhanded : ∀ p x q, Shared source p → p.retain = false →
      (x, q) ∈ m.topicSubscriptions.resolveSubscribers source → start.Handed event x p q)
    (hp : Shared source p) (hretain : p.retain = false)
    (h : m.publish connections p = .ok (effects, p', m')) :
    Trace (Act connections start event) m effects m' ∧ Shared source p' ∧
      p'.retain = false := by
  rcases publish_eq_ok_iff_publishTo.mp h with ⟨calls, hloop, rfl⟩
  have hsubscribers : m.topicSubscriptions.resolveSubscribers p =
      m.topicSubscriptions.resolveSubscribers source := by
    rw [TopicSubscriptions.resolveSubscribers, TopicSubscriptions.resolveSubscribers,
      hp.facts.topic]
  rw [hsubscribers] at hloop
  rcases trace_of_publishTo start event hhanded hp hretain hloop with ⟨htrace, hp', hretain'⟩
  exact ⟨(Trace.single (.announced p)).append htrace, hp', hretain'⟩

variable (start event) in
/-- A session that answers its client, and the packet that it may have published. -/
theorem trace_of_clientSentPublish {x : Bytes} {entry : SessionEntry} {source p p' : Publish}
    (hx : event.client = some x) (hentry : m.sessions.lookup x = some entry)
    (hhanded : ∀ p y q, Shared source p → p.retain = false →
      (y, q) ∈ m.topicSubscriptions.resolveSubscribers source → start.Handed event y p q)
    (hp : Shared source p) (hretain : p.retain = false)
    (h : m.clientSentPublish connections x entry p = .ok (effects, p', m')) :
    Trace (Act connections start event) m effects m' ∧ Shared source p' := by
  rcases bind_eq_ok_iff.mp h with ⟨⟨dispatchPublish, calls, session⟩, hsession, hrest⟩
  have hadvances : Trace (Act connections start event) m (callsOf x entry calls)
      (m.update x session) :=
    Trace.single (.advanced x entry calls session hx hentry
      (MqttClientSession.advances_clientSentPublish hsession)
      (fun _ => (MqttClientSession.onlyAcks_of_clientSentPublish hsession).not_publish)
      (fun _ => (MqttClientSession.onlyAcks_of_clientSentPublish hsession).stops))
  cases dispatchPublish with
  | true =>
      rcases bind_eq_ok_iff.mp hrest with ⟨⟨more, published, m''⟩, hpublish, hresult⟩
      cases hresult
      have hsubscriptions : (m.update x session).topicSubscriptions = m.topicSubscriptions :=
        topicSubscriptions_update session
      rcases trace_of_publish start event (by
        rw [hsubscriptions]
        exact hhanded) hp hretain hpublish with ⟨htrace, hp', -⟩
      exact ⟨hadvances.append htrace, hp'⟩
  | false =>
      cases hrest
      exact ⟨hadvances, hp⟩

variable (start event) in
/-- The retained messages are handed to the session that has subscribed, and kept as they
are afterwards. -/
theorem trace_of_publishRetained {x : Bytes} {subscribe : Subscribe} {entry : SessionEntry}
    (he : event = .clientSubscribed x subscribe) (hconnected : connected connections entry = true)
    {messages : List (Publish × QoS)} {r r' : RetainedMessages} {s s' : MqttClientSession}
    {calls : List SenderCall}
    (hmessages : ∀ message ∈ messages, message ∈ start.retainedMessages.messagesFor subscribe)
    (hentry : m.sessions.lookup x = some { entry with session := s })
    (hretained : m.retainedMessages = r)
    (h : publishRetained true messages r s = .ok (calls, r', s')) :
    Trace (Act connections start event) m (callsOf x entry calls)
      { m.update x s' with retainedMessages := r' } := by
  induction messages generalizing m r s calls with
  | nil =>
      cases h
      subst hretained
      have hsame := update_of_lookup hentry
      simp only at hsame
      rw [hsame]
      exact Trace.nil m
  | cons message rest ih =>
      rcases message with ⟨p, q⟩
      rcases assert_bind_eq_ok_iff.mp h with ⟨hretain, hpublish⟩
      rcases bind_eq_ok_iff.mp hpublish with ⟨⟨calls₁, p', s₁⟩, hsession, hloop⟩
      rcases bind_eq_ok_iff.mp hloop with ⟨⟨calls₂, r₂, s₂⟩, hrest, hresult⟩
      cases hresult
      have hmessage := hmessages (p, q) (by simp)
      have hp := (RetainedMessages.mem_messagesFor_iff.mp hmessage).1
      rcases shared_of_publish .source hsession with ⟨hshared, hretain'⟩
      rw [← hconnected] at hsession
      have hhanded : Act connections start event m (callsOf x entry calls₁) (m.update x s₁) :=
        Act.handed x { entry with session := s } p q calls₁ p' s₁ hentry
          (he ▸ .retained x subscribe p q hmessage hretain) hsession
      have hlowered : Act connections start event (m.update x s₁) []
          { m.update x s₁ with
            retainedMessages := (m.update x s₁).retainedMessages.update p' } :=
        .lowered p p' hp hshared (hretain'.trans hretain)
      have htail := ih (m := { m.update x s₁ with
          retainedMessages := (m.update x s₁).retainedMessages.update p' })
        (fun message hmem => hmessages message (List.mem_cons_of_mem _ hmem))
        (lookup_update_self hentry s₁) (by rw [retainedMessages_update, hretained]) hrest
      have hafter (t : RetainedMessages) : ({ m.update x s₁ with
          retainedMessages := t } : SessionManager).update x s' =
            { m.update x s' with retainedMessages := t } := by
        rw [update_withRetained, update_update]
      rw [hafter] at htail
      have htrace := (Trace.single hhanded).append ((Trace.single hlowered).append htail)
      rw [List.nil_append] at htrace
      rw [callsOf, List.map_append]
      exact htrace

variable (start event) in
/-- Nothing is handed to a session without a connection. -/
theorem trace_of_publishRetained_disconnected {messages : List (Publish × QoS)}
    {subscribe : Subscribe} {r r' : RetainedMessages} {s s' : MqttClientSession}
    {calls : List SenderCall}
    (hmessages : ∀ message ∈ messages, message ∈ start.retainedMessages.messagesFor subscribe)
    (hretained : m.retainedMessages = r)
    (h : publishRetained false messages r s = .ok (calls, r', s')) :
    calls = [] ∧ s' = s ∧
      Trace (Act connections start event) m [] { m with retainedMessages := r' } := by
  induction messages generalizing m r calls with
  | nil =>
      cases h
      subst hretained
      exact ⟨rfl, rfl, Trace.nil m⟩
  | cons message rest ih =>
      rcases message with ⟨p, q⟩
      rcases assert_bind_eq_ok_iff.mp h with ⟨hretain, hpublish⟩
      rcases bind_eq_ok_iff.mp hpublish with ⟨⟨calls₁, p', s₁⟩, hsession, hloop⟩
      rcases bind_eq_ok_iff.mp hloop with ⟨⟨calls₂, r₂, s₂⟩, hrest, hresult⟩
      cases hresult
      cases hsession
      have hp := (RetainedMessages.mem_messagesFor_iff.mp (hmessages (p, q) (by simp))).1
      have hlowered : Act connections start event m []
          { m with retainedMessages := m.retainedMessages.update p } :=
        .lowered p p hp .source hretain
      rcases ih (m := { m with retainedMessages := m.retainedMessages.update p })
        (fun message hmem => hmessages message (List.mem_cons_of_mem _ hmem))
        (by rw [hretained]) hrest with ⟨hcalls, hs, htail⟩
      refine ⟨?_, hs, (Trace.single hlowered).append htail⟩
      rw [hcalls]
      rfl

/-- A session without a connection is destroyed when it is to send a packet. -/
theorem update_remove {x y : Bytes} {entry : SessionEntry}
    (hentry : m.sessions.lookup x = some entry) :
    (m.remove y).update x entry.session = m.remove y := by
  by_cases hxy : x = y
  · apply update_of_none
    rw [sessions_remove, hxy, Table.lookup_erase_self]
  · apply update_of_lookup
    rw [sessions_remove, Table.lookup_erase_of_ne _ hxy, hentry]

/-- A SUBSCRIBE is answered before the retained messages are sent. -/
theorem trace_of_clientSubscribed {x : Bytes} {subscribe : Subscribe}
    (h : m.clientSubscribed connections x subscribe = .ok (effects, m')) :
    Trace (Act connections m (.clientSubscribed x subscribe)) m effects m' := by
  have hsubscribed : Trace (Act connections m (.clientSubscribed x subscribe)) m []
      { m with topicSubscriptions := (m.topicSubscriptions.subscribe x subscribe).2 } :=
    Trace.single (.subscribed x subscribe rfl)
  simp only [clientSubscribed] at h
  generalize hafter : ({ m with
    topicSubscriptions := (m.topicSubscriptions.subscribe x subscribe).2 } : SessionManager) = t
    at h hsubscribed
  have hretained : t.retainedMessages = m.retainedMessages := by rw [← hafter]
  have hsessions : t.sessions = m.sessions := by rw [← hafter]
  split at h
  · rename_i entry hentry
    rcases bind_eq_ok_iff.mp h with ⟨⟨calls, r, session⟩, hloop, hresult⟩
    cases hresult
    have hentry' : t.sessions.lookup x = some entry := by rw [hsessions, hentry]
    have hmessages : ∀ message ∈ t.retainedMessages.messagesFor subscribe,
        message ∈ m.retainedMessages.messagesFor subscribe := by
      rw [hretained]
      exact fun _ hmem => hmem
    cases hconnected : connected connections entry with
    | true =>
        simp only [send, hconnected, if_true] at hloop ⊢
        have hsuback : Act connections m (.clientSubscribed x subscribe) t
            (callsOf x entry [.send (.suback (m.topicSubscriptions.subscribe x subscribe).1)]) t :=
          .acknowledged x entry _ rfl hentry' nofun
        have hmore := trace_of_publishRetained m (.clientSubscribed x subscribe)
          rfl hconnected hmessages hentry' rfl hloop
        exact hsubscribed.append ((Trace.single hsuback).append hmore)
    | false =>
        simp only [send, hconnected, Bool.false_eq_true, if_false] at hloop ⊢
        have hremoved : Act connections m (.clientSubscribed x subscribe) t []
            (t.remove entry.session.clientId) :=
          .removed _ ⟨entry, hentry, hconnected, rfl⟩
        have hdestroyed : (t.remove entry.session.clientId).retainedMessages =
            t.retainedMessages := rfl
        rcases trace_of_publishRetained_disconnected m (.clientSubscribed x subscribe)
          hmessages hdestroyed hloop with ⟨hcalls, hsession, hmore⟩
        rw [hcalls, hsession, destroy, update_remove hentry']
        exact hsubscribed.append ((Trace.single hremoved).append hmore)
  · cases h
    exact hsubscribed

/-- An event that concerns the session of one client is answered by this session. -/
theorem trace_of_onSession {x : Bytes}
    {answer : Bool → MqttClientSession → Except Fault (List SenderCall × MqttClientSession)}
    (hx : event.client = some x) (hevent : event.hands = false) (hack : event.isAck = true)
    (hanswer : ∀ isConnected s calls s', answer isConnected s = .ok (calls, s') →
      s.Advances calls s')
    (h : m.onSession connections x answer = .ok (effects, m')) :
    Trace (Act connections start event) m effects m' := by
  rcases onSession_eq_ok_iff.mp h with
    ⟨entry, calls, session, hentry, hsession, rfl, rfl⟩ | ⟨-, rfl, rfl⟩
  · exact Trace.single (.advanced x entry calls session hx hentry (hanswer _ _ _ _ hsession)
      (by simp [hevent]) (by simp [hack]))
  · exact Trace.nil m'

/-- A timer of a session that elapses is answered by this session. -/
theorem trace_of_timerElapses {x : Bytes}
    {elapses : MqttClientSession → Option MqttClientSession} (hx : event.client = some x)
    (hevent : event.hands = false) (helapses : ∀ s s', elapses s = some s' → s.Advances [] s')
    (h : m.timerElapses x elapses = some m') :
    Trace (Act connections start event) m [] m' := by
  rcases timerElapses_eq_some_iff.mp h with ⟨entry, session, hentry, hsession, rfl⟩
  exact Trace.single
    (.advanced x entry [] session hx hentry (helapses _ _ hsession) (by simp [hevent])
      fun _ => rfl)

/-- The handler of a session's timer is answered by this session. -/
theorem trace_of_timeout {x : Bytes}
    {handler : MqttClientSession →
      Option (Except Fault (List SenderCall × MqttClientSession))} (hx : event.client = some x)
    (hevent : event.hands = false)
    (hhandler : ∀ s calls s', handler s = some (.ok (calls, s')) →
      s.Advances calls s' ∧ stops calls = false)
    (h : m.timeout x handler = some (.ok (effects, m'))) :
    Trace (Act connections start event) m effects m' := by
  rcases timeout_eq_ok_iff.mp h with ⟨entry, calls, session, hentry, hsession, rfl, rfl⟩
  rcases hhandler _ _ _ hsession with ⟨hadvances, hstops⟩
  exact Trace.single (.advanced x entry calls session hx hentry hadvances (by simp [hevent])
    fun _ => hstops)

/-- A packet that a client has published is handed to the subscribers with its RETAIN flag
cleared. -/
theorem trace_of_clientPublished {x : Bytes} {p : Publish}
    (h : m.clientPublished connections x p = .ok (effects, m')) :
    Trace (Act connections m (.clientPublished x p)) m effects m' := by
  simp only [clientPublished] at h
  split at h
  · rename_i entry hentry
    split at h
    · rcases bind_eq_ok_iff.mp h with ⟨⟨calls, p', m''⟩, hsession, hrest⟩
      rcases bind_eq_ok_iff.mp hrest with ⟨r, hkept, hresult⟩
      cases hresult
      rcases trace_of_clientSentPublish m (.clientPublished x p) rfl hentry
        (fun p' y q hp hretain hsubscriber => .published x p p' y q hp hretain hsubscriber)
        (.retained .source false) (Publish.retain_setRetain p false) hsession with ⟨htrace, hp'⟩
      have hact := Trace.snoc htrace (.kept x p _ r rfl (.retained hp' true) hkept)
      rw [List.append_nil] at hact
      exact hact
    · rename_i hretain
      rcases bind_eq_ok_iff.mp h with ⟨⟨calls, p', m''⟩, hsession, hresult⟩
      cases hresult
      exact (trace_of_clientSentPublish m (.clientPublished x p) rfl hentry
        (fun p' y q hp hretain hsubscriber => .published x p p' y q hp hretain hsubscriber)
        .source (Bool.eq_false_iff.mpr hretain) hsession).1
  · cases h
    exact Trace.nil m

/-- The last will of a client is published when its session has been removed. -/
theorem trace_of_clientDisconnectedUngracefully {x : Bytes} {reason : DisconnectReason}
    (h : m.clientDisconnectedUngracefully connections x reason = .ok (effects, m')) :
    Trace (Act connections m (.clientDisconnectedUngracefully x reason)) m effects m' := by
  have hremoved : Trace (Act connections m (.clientDisconnectedUngracefully x reason)) m []
      (m.remove x) := Trace.single (.removed x rfl)
  rcases clientDisconnectedUngracefully_eq_ok_iff.mp h with
    ⟨entry, lwt, p, hentry, hwill, hpublish⟩ | ⟨entry, -, -, rfl, rfl⟩ | ⟨-, rfl, rfl⟩
  · have hretain : lwt.retain = false := by
      rcases Option.map_eq_some_iff.mp hwill with ⟨connect, -, rfl⟩
      exact Publish.retain_create _ _ _ _ _ _
    rcases trace_of_publish m (.clientDisconnectedUngracefully x reason) (m := m.remove x)
      (fun p' y q hp hretain hsubscriber =>
        .lastWill x reason entry lwt p' y q hentry hwill hp hretain hsubscriber)
      .source hretain hpublish with ⟨htrace, -⟩
    exact hremoved.append htrace
  · exact hremoved
  · exact Trace.nil m'

/-- An event is a trace of acts. -/
theorem trace_of_perform (h : m.perform connections event = some (.ok (effects, m'))) :
    Trace (Act connections m event) m effects m' := by
  cases event with
  | clientConnected connect connection =>
      rw [perform, Option.some.injEq] at h
      rcases map_eq_ok_iff.mp h with ⟨m'', hconnected, hresult⟩
      cases hresult
      rcases clientConnected_eq_ok_iff.mp hconnected with
        ⟨x, hx, hlookup, rfl⟩ | ⟨x, entry, -, -, rfl⟩ | ⟨-, rfl⟩
      · exact Trace.single (.created connect connection x rfl hx hlookup)
      · exact Trace.nil m'
      · exact Trace.nil m'
  | clientDisconnected x reason =>
      cases h
      exact Trace.single (.removed x rfl)
  | clientSubscribed x subscribe =>
      rw [perform, Option.some.injEq] at h
      exact trace_of_clientSubscribed h
  | clientUnsubscribed x unsubscribe =>
      have hunsubscribed : Trace (Act connections m (.clientUnsubscribed x unsubscribe)) m []
          { m with topicSubscriptions :=
            (m.topicSubscriptions.unsubscribe x unsubscribe).2 } :=
        Trace.single (.unsubscribed x unsubscribe rfl)
      simp only [perform, clientUnsubscribed, Option.some.injEq, Except.ok.injEq] at h
      split at h
      · rename_i entry hentry
        cases hconnected : connected connections entry with
        | true =>
            simp only [send, hconnected, if_true] at h
            cases h
            exact hunsubscribed.snoc (.acknowledged x entry _ rfl hentry nofun)
        | false =>
            simp only [send, hconnected, Bool.false_eq_true, if_false] at h
            cases h
            exact hunsubscribed.snoc (.removed _ ⟨entry, hentry, hconnected, rfl⟩)
      · cases h
        exact hunsubscribed
  | clientPublished x p =>
      rw [perform, Option.some.injEq] at h
      exact trace_of_clientPublished h
  | clientAcked x ack =>
      rw [perform, Option.some.injEq] at h
      cases ack with
      | puback i | pubrec i | pubcomp i =>
          simp only [clientAcked, clientAckedPublish, clientReceivedPublish,
            clientCompletedPublish] at h
          refine trace_of_onSession rfl rfl rfl ?_ h
          exact fun _ _ _ _ hsession => MqttClientSession.advances_responseReceived hsession
      | pubrel i =>
          simp only [clientAcked, clientReleasedPublish] at h
          refine trace_of_onSession rfl rfl rfl ?_ h
          exact fun _ _ _ _ hsession => MqttClientSession.advances_clientReleasedPublish hsession
  | clientDisconnectedUngracefully x reason =>
      rw [perform, Option.some.injEq] at h
      exact trace_of_clientDisconnectedUngracefully h
  | destroy x =>
      cases h
      exact Trace.single (.removed x rfl)
  | txTimerElapses x i =>
      rcases Option.map_eq_some_iff.mp h with ⟨m'', hm, hresult⟩
      cases hresult
      exact trace_of_timerElapses rfl rfl
        (fun _ _ h => MqttClientSession.advances_txTimerElapses h) hm
  | txTimeout x i =>
      exact trace_of_timeout rfl rfl (fun _ _ _ h =>
        ⟨MqttClientSession.advances_txTimeout h, MqttClientSession.stops_txTimeout h⟩) h
  | rxTimerElapses x i =>
      rcases Option.map_eq_some_iff.mp h with ⟨m'', hm, hresult⟩
      cases hresult
      exact trace_of_timerElapses rfl rfl
        (fun _ _ h => MqttClientSession.advances_rxTimerElapses h) hm
  | rxTimeout x i =>
      exact trace_of_timeout rfl rfl (fun _ _ _ h =>
        ⟨MqttClientSession.advances_rxTimeout h, MqttClientSession.stops_rxTimeout h⟩) h
  | subscriptionsReordered order =>
      simp only [perform] at h
      split at h
      · rename_i hperm
        cases h
        exact Trace.single (.subscriptionsReordered order hperm)
      · cases h
  | messagesReordered order =>
      simp only [perform] at h
      split at h
      · rename_i hperm
        cases h
        exact Trace.single (.messagesReordered order hperm)
      · cases h

end Traces

/-! ## What becomes of the sessions -/

/-- What a session keeps as long as it is stored: its connection, its client and its last
will. -/
structure Profile where
  connection : ConnectionId
  clientId : Bytes
  lwtMessage : Option {connect : Connect // connect.containsLastWill = true}

/-- The profile of a session. -/
def profileOf (entry : SessionEntry) : Profile :=
  ⟨entry.connection, entry.session.clientId, entry.session.lwtMessage⟩

/-- The profile of the session that is stored for a client. -/
def profile (m : SessionManager) (x : Bytes) : Option Profile :=
  (m.sessions.lookup x).map profileOf

/-- The profile of a session that is created for a connection. -/
def createdProfile (connect : Connect) (connection : ConnectionId) : Profile :=
  profileOf ⟨connection, MqttClientSession.clientConnected 0 connect⟩

section Profiles

variable {connections : Connections} {start m m' : SessionManager} {event : Event}
  {effects : List Effect} {x : Bytes}

/-- A session that changes keeps its profile. -/
theorem profile_update {y : Bytes} {entry : SessionEntry} {session : MqttClientSession}
    (hentry : m.sessions.lookup y = some entry)
    (hclient : session.clientId = entry.session.clientId)
    (hlwt : session.lwtMessage = entry.session.lwtMessage) :
    (m.update y session).profile x = m.profile x := by
  rw [profile, profile, lookup_update]
  split
  · rename_i hxy
    rw [hxy, hentry, Option.map_some, Option.map_some, Option.map_some]
    rw [profileOf, profileOf, hclient, hlwt]
  · rfl

theorem profile_remove {y : Bytes} :
    (m.remove y).profile x = if x = y then none else m.profile x := by
  rw [profile, profile, sessions_remove, Table.lookup_erase]
  split <;> rfl

theorem profile_insert {y : Bytes} (entry : SessionEntry) :
    ({ m with sessions := m.sessions.insert y entry } : SessionManager).profile x =
      if x = y then some (profileOf entry) else m.profile x := by
  rw [profile, profile, Table.lookup_insert]
  split <;> rfl

/-- What an event may make of the session of a client. -/
inductive Fate (m : SessionManager) (connections : Connections) (event : Event) (x : Bytes) :
    Option Profile → Prop
  | same : Fate m connections event x (m.profile x)
  | removed (h : m.Ends connections x event) : Fate m connections event x none
  | created (connect : Connect) (connection : ConnectionId)
      (he : event = .clientConnected connect connection)
      (hx : connections connection = some (some x)) (hfree : m.profile x = none) :
      Fate m connections event x (some (createdProfile connect connection))

/-- What an act makes of the session of a client. -/
theorem fate_of_act (hfate : Fate start connections event x (m.profile x))
    (h : Act connections start event m effects m') :
    Fate start connections event x (m'.profile x) := by
  cases h with
  | created connect connection y he hy hfree =>
      rw [profile_insert]
      split
      · rename_i hxy
        subst hxy
        have hnone : m.profile x = none := by rw [profile, hfree, Option.map_none]
        rw [hnone] at hfate
        refine .created connect connection he hy ?_
        generalize hp : (none : Option Profile) = p at hfate
        cases hfate with
        | same => rfl
        | removed hends =>
            rw [he] at hends
            exact hends.elim
        | created => cases hp
      · exact hfate
  | removed y hends =>
      rw [profile_remove]
      split
      · rename_i hxy
        rw [hxy]
        exact .removed hends
      · exact hfate
  | advanced y entry calls session hy hentry hadvances hquiet hstops =>
      rw [profile_update hentry hadvances.same_client.1 hadvances.same_client.2]
      exact hfate
  | handed y entry p q calls p' session hentry hp hpublish =>
      rcases MqttClientSession.publish_eq_ok_iff.mp hpublish with ⟨t, -, rfl⟩
      have hsame : (m.update y (entry.session.withTx t)).profile x = m.profile x :=
        profile_update hentry rfl rfl
      rw [hsame]
      exact hfate
  | subscribed | unsubscribed | subscriptionsReordered | messagesReordered | acknowledged
  | announced | lowered | kept => exact hfate

/-- What an event makes of the session of a client, and what has become of it by the time of
any act. -/
theorem fate_of_trace (h : Trace (Act connections m event) m effects m') :
    Fate m connections event x (m'.profile x) :=
  h.invariant (fun _ t => Fate m connections event x (t.profile x)) []
    (fun _ _ _ _ hfate hact => fate_of_act hfate hact) .same

/-- What an event makes of the session of a client. -/
theorem fate_of_perform (h : m.perform connections event = some (.ok (effects, m'))) :
    Fate m connections event x (m'.profile x) :=
  fate_of_trace (trace_of_perform h)

/-! ## Who is called -/

/-- Handing a packet to a session sends at most a PUBLISH. -/
theorem publish_of_handed {s s' : MqttClientSession} {isConnected : Bool} {p p' : Publish}
    {q : QoS} {calls : List SenderCall} (h : s.publish isConnected p q = .ok (calls, p', s'))
    {call : SenderCall} (hcall : call ∈ calls) : ∃ p, call = .send (.publish p) := by
  rcases MqttClientSession.publish_eq_ok_iff.mp h with ⟨t, ht, -⟩
  cases TxInFlightPublications.publishes_of_publish ht with
  | nothing => cases hcall
  | itself outgoing hset => exact ⟨_, List.mem_singleton.mp hcall⟩
  | copy _ hqos outgoing hset hfree => exact ⟨outgoing, List.mem_singleton.mp hcall⟩

/-- The calls of an act are made by one session on its connection. -/
theorem call_of_act (h : Act connections start event m effects m') {k : ConnectionId}
    {call : SenderCall} (hcall : .call x k call ∈ effects) :
    (∃ entry, m.sessions.lookup x = some entry ∧ entry.connection = k) ∧
      (∀ connect connection, event ≠ .clientConnected connect connection) ∧
      (event.client = some x ∨ ∃ p, call = .send (.publish p)) := by
  have hnotConnected : ∀ {y}, event.client = some y →
      ∀ connect connection, event ≠ .clientConnected connect connection := by
    intro y hy connect connection he
    rw [he] at hy
    cases hy
  cases h with
  | acknowledged y entry packet hy hentry hpacket =>
      rcases mem_callsOf_iff.mp hcall with ⟨rfl, rfl, -⟩
      exact ⟨⟨entry, hentry, rfl⟩, hnotConnected hy, Or.inl hy⟩
  | advanced y entry calls session hy hentry hadvances hquiet hstops =>
      rcases mem_callsOf_iff.mp hcall with ⟨rfl, rfl, -⟩
      exact ⟨⟨entry, hentry, rfl⟩, hnotConnected hy, Or.inl hy⟩
  | handed y entry p q calls p' session hentry hp hpublish =>
      rcases mem_callsOf_iff.mp hcall with ⟨rfl, rfl, hmade⟩
      refine ⟨⟨entry, hentry, rfl⟩, ?_, Or.inr (publish_of_handed hpublish hmade)⟩
      cases hp <;> nofun
  | announced p => simp at hcall
  | created | removed | subscribed | unsubscribed | subscriptionsReordered | messagesReordered
  | lowered | kept => cases hcall

/-- The calls of an event are made by sessions that were stored before it, on their
connections.  Clients that the event does not come from are sent a PUBLISH at most. -/
theorem call_of_perform (h : m.perform connections event = some (.ok (effects, m')))
    {k : ConnectionId} {call : SenderCall} (hcall : .call x k call ∈ effects) :
    (m.profile x).map Profile.connection = some k ∧
      (event.client = some x ∨ ∃ p, call = .send (.publish p)) := by
  have hinv : Fate m connections event x (m'.profile x) ∧
      ∀ k call, .call x k call ∈ effects → (m.profile x).map Profile.connection = some k ∧
        (event.client = some x ∨ ∃ p, call = .send (.publish p)) := by
    refine (trace_of_perform h).invariant (fun pre t => Fate m connections event x (t.profile x) ∧
      ∀ k call, .call x k call ∈ pre → (m.profile x).map Profile.connection = some k ∧
        (event.client = some x ∨ ∃ p, call = .send (.publish p))) [] ?_ ⟨.same, nofun⟩
    rintro pre t more t' ⟨hfate, hpre⟩ hact
    refine ⟨fate_of_act hfate hact, ?_⟩
    intro k call hcall
    rcases List.mem_append.mp hcall with hcall | hcall
    · exact hpre k call hcall
    · rcases call_of_act hact hcall with ⟨⟨entry, hentry, rfl⟩, hne, hkind⟩
      refine ⟨?_, hkind⟩
      have hprofile : t.profile x = some (profileOf entry) := by
        rw [profile, hentry, Option.map_some]
      rw [hprofile] at hfate
      generalize hp : some (profileOf entry) = p at hfate
      cases hfate with
      | same =>
          rw [← hp]
          rfl
      | removed => cases hp
      | created connect connection he hx hfree => exact absurd he (hne connect connection)
  exact hinv.2 k call hcall

end Profiles

end SessionManager

end Dispatch
end WallyIo
