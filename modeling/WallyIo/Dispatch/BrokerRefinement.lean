import WallyIo.Dispatch.Duplicates
import WallyIo.Dispatch.Provenance
import WallyIo.Dispatch.SubscriptionHistory
import WallyIo.Library.Broker

/-!
# The session manager as a broker

Without packet identifiers, acknowledgements and timers the session manager is a broker: it
knows where its clients are served, who has subscribed to what and which messages are retained.
What it sends for the first time is what such a broker delivers, and everything else that it
publishes is a repetition.

Main results:

- Definition {lit}`SessionManager.broker`: the broker that a session manager is.
- Theorem {lit}`refines_of_perform`: an event is a sequence of actions of this broker, with the
  same deliveries.
- Theorem {lit}`backed_of_perform`: what is published without such an action has been delivered
  before.
-/

namespace WallyIo
namespace Dispatch

open Protocol Library
open TxTable (SameContent)

/-! ## The abstraction -/

/-- The conventions of this broker. -/
def conventions : Conventions Bytes Bytes QoS Bytes where
  Covers topicFilter topic := topicFilterMatchesTopic topicFilter topic = true
  Served qos := qos ≠ .reserved
  Blank applicationMessage := applicationMessage = []

/-- What happens to this broker. -/
abbrev BrokerAction := Broker.Action Bytes ConnectionId Bytes Bytes QoS Bytes

/-- What this broker delivers. -/
abbrev BrokerDelivery := Broker.Delivery Bytes ConnectionId Bytes QoS Bytes

/-- What can be seen of this broker. -/
abbrev BrokerObservation := Broker.Observation Bytes ConnectionId Bytes Bytes QoS Bytes

/-- The retained messages with their topics. -/
def RetainedMessages.contents (t : RetainedMessages) : List (Bytes × Bytes) :=
  t.messages.map fun p => (p.topic, p.applicationMessage)

/-- The requests of a SUBSCRIBE. -/
def requestsOf (subscribe : Subscribe) : List (Bytes × QoS) :=
  subscribe.subscriptions.map fun subscr => (subscr.topicFilter, subscr.maximumQos)

/-- What a PUBLISH delivers to a client on a connection. -/
def deliveryOf (clientId : Bytes) (connection : ConnectionId) (p : Publish) : BrokerDelivery :=
  ⟨clientId, connection, p.topic, p.applicationMessage, p.qos, p.retain⟩

/-- The PUBLISH that an effect sends, and to whom. -/
def Effect.publication : Effect → Option (Bytes × ConnectionId × Publish)
  | .call clientId connection (.send (.publish p)) => some (clientId, connection, p)
  | _ => none

/-- What some effects deliver. -/
def deliveries (effects : List Effect) : List BrokerDelivery :=
  (effects.filterMap Effect.publication).map fun e => deliveryOf e.1 e.2.1 e.2.2

namespace SessionManager

variable (m : SessionManager) (connections : Connections)

/-- The broker that a session manager is. -/
def broker : Broker Bytes ConnectionId Bytes Bytes QoS Bytes where
  session x := (m.sessions.lookup x).map SessionEntry.connection
  subscriptions := {s | ⟨s.2.1, s.2.2, s.1⟩ ∈ m.topicSubscriptions.subscriptions}
  kept := {e | e ∈ m.retainedMessages.contents}

/-- The connections that still exist. -/
def reachable (connection : ConnectionId) : Prop := (connections connection).isSome = true

/-- A session is left if it is to answer and its connection is gone. -/
def leftBehind (x : Bytes) : List BrokerAction :=
  match m.sessions.lookup x with
  | some entry => if connected connections entry then [] else [.leave entry.session.clientId]
  | none => []

/-- A packet is published unless it is a copy. -/
def forwardActions (entry : SessionEntry) (p : Publish) : List BrokerAction :=
  if entry.session.rxInFlightPublications.publications.contains p.packetIdentifier then []
  else [.publish p.topic p.applicationMessage]

/-- A message is retained whether or not it is published.  Whether this happens before or after it
is published makes no difference to a broker. -/
def publishActions (entry : SessionEntry) (p : Publish) : List BrokerAction :=
  if p.retain then .keep p.topic p.applicationMessage :: forwardActions entry p
  else forwardActions entry p

/-- The last will of a session. -/
def willActions (entry : SessionEntry) : List BrokerAction :=
  match entry.session.lastWill with
  | some lwtPublish => [.publish lwtPublish.topic lwtPublish.applicationMessage]
  | none => []

/-- What an event is for this broker. -/
def actions : Event → List BrokerAction
  | .clientConnected _ connection =>
      match connections connection with
      | some (some x) => [.arrive x connection]
      | _ => []
  | .clientDisconnected x _ => [.leave x]
  | .destroy x => [.leave x]
  | .clientSubscribed x subscribe =>
      .subscribe x (requestsOf subscribe) :: m.leftBehind connections x
  | .clientUnsubscribed x unsubscribe =>
      .unsubscribe unsubscribe.topicFilters :: m.leftBehind connections x
  | .clientPublished x p =>
      match m.sessions.lookup x with
      | some entry => publishActions entry p
      | none => []
  | .clientDisconnectedUngracefully x _ =>
      match m.sessions.lookup x with
      | some entry => .leave x :: willActions entry
      | none => []
  | .clientAcked _ _ | .txTimerElapses _ _ | .txTimeout _ _ | .rxTimerElapses _ _
  | .rxTimeout _ _ | .subscriptionsReordered _ | .messagesReordered _ => []

/-- What can be seen of the broker in an event. -/
def observed (event : Event) (effects : List Effect) : List BrokerObservation :=
  (m.actions connections event).map (.input (reachable connections)) ++
    (if event.hands then deliveries effects else []).map .output

variable {m connections} {event : Event} {a : BrokerAction}

/-- Which actions an event may be.  Clients may leave and packets may be published in many of
them. -/
inductive Told (m : SessionManager) : Event → BrokerAction → Prop
  | arrives (event : Event) (x : Bytes) (connection : ConnectionId) :
      Told m event (.arrive x connection)
  | leaves (event : Event) (x : Bytes) : Told m event (.leave x)
  | publishes (event : Event) (topic applicationMessage : Bytes) :
      Told m event (.publish topic applicationMessage)
  | subscribes (x : Bytes) (subscribe : Subscribe) :
      Told m (.clientSubscribed x subscribe) (.subscribe x (requestsOf subscribe))
  | unsubscribes (x : Bytes) (unsubscribe : Unsubscribe) :
      Told m (.clientUnsubscribed x unsubscribe) (.unsubscribe unsubscribe.topicFilters)
  | retains (x : Bytes) (p : Publish) (entry : SessionEntry)
      (hentry : m.sessions.lookup x = some entry) (hretain : p.retain = true) :
      Told m (.clientPublished x p) (.keep p.topic p.applicationMessage)

theorem mem_leftBehind {x : Bytes} (h : a ∈ m.leftBehind connections x) : ∃ y, a = .leave y := by
  rw [leftBehind] at h
  split at h
  · split at h
    · cases h
    · exact ⟨_, List.mem_singleton.mp h⟩
  · cases h

theorem mem_forwardActions {entry : SessionEntry} {p : Publish} (h : a ∈ forwardActions entry p) :
    a = .publish p.topic p.applicationMessage := by
  rw [forwardActions] at h
  split at h
  · cases h
  · exact List.mem_singleton.mp h

theorem mem_willActions {entry : SessionEntry} (h : a ∈ willActions entry) :
    ∃ topic applicationMessage, a = .publish topic applicationMessage := by
  rw [willActions] at h
  split at h
  · exact ⟨_, _, List.mem_singleton.mp h⟩
  · cases h

/-- The actions of an event, taken one by one. -/
theorem told_of_mem_actions (h : a ∈ m.actions connections event) : m.Told event a := by
  cases event with
  | clientConnected connect connection =>
      simp only [actions] at h
      split at h
      · cases List.mem_singleton.mp h
        exact .arrives _ _ _
      · cases h
  | clientDisconnected x reason | destroy x =>
      cases List.mem_singleton.mp h
      exact .leaves _ _
  | clientSubscribed x subscribe =>
      rcases List.mem_cons.mp h with rfl | h
      · exact .subscribes x subscribe
      · obtain ⟨y, rfl⟩ := mem_leftBehind h
        exact .leaves _ _
  | clientUnsubscribed x unsubscribe =>
      rcases List.mem_cons.mp h with rfl | h
      · exact .unsubscribes x unsubscribe
      · obtain ⟨y, rfl⟩ := mem_leftBehind h
        exact .leaves _ _
  | clientPublished x p =>
      simp only [actions] at h
      split at h
      · rename_i entry hentry
        rw [publishActions] at h
        split at h
        · rename_i hretain
          rcases List.mem_cons.mp h with rfl | h
          · exact .retains x p entry hentry hretain
          · rw [mem_forwardActions h]
            exact .publishes _ _ _
        · rw [mem_forwardActions h]
          exact .publishes _ _ _
      · cases h
  | clientDisconnectedUngracefully x reason =>
      simp only [actions] at h
      split at h
      · rcases List.mem_cons.mp h with rfl | h
        · exact .leaves _ _
        · obtain ⟨topic, applicationMessage, rfl⟩ := mem_willActions h
          exact .publishes _ _ _
      · cases h
  | clientAcked | txTimerElapses | txTimeout | rxTimerElapses | rxTimeout | subscriptionsReordered
  | messagesReordered => cases h

/-- Nothing but the first action changes subscriptions or what is kept. -/
theorem told_of_mem_tail (h : a ∈ (m.actions connections event).tail) :
    (∃ y, a = .leave y) ∨ ∃ topic applicationMessage, a = .publish topic applicationMessage := by
  cases event with
  | clientSubscribed x subscribe | clientUnsubscribed x unsubscribe =>
      exact Or.inl (mem_leftBehind h)
  | clientPublished x p =>
      simp only [actions] at h
      split at h
      · rw [publishActions] at h
        split at h
        · exact Or.inr ⟨_, _, mem_forwardActions h⟩
        · exact Or.inr ⟨_, _, mem_forwardActions (List.mem_of_mem_tail h)⟩
      · cases h
  | clientDisconnectedUngracefully x reason =>
      simp only [actions] at h
      split at h
      · exact Or.inr (mem_willActions h)
      · cases h
  | clientConnected connect connection =>
      simp only [actions] at h
      split at h <;> cases h
  | clientDisconnected | destroy | clientAcked | txTimerElapses | txTimeout | rxTimerElapses
  | rxTimeout | subscriptionsReordered | messagesReordered => cases h

theorem subscribe_mem_actions_iff {x : Bytes} {requests : List (Bytes × QoS)} :
    .subscribe x requests ∈ m.actions connections event ↔
      ∃ subscribe, event = .clientSubscribed x subscribe ∧ requests = requestsOf subscribe := by
  constructor
  · intro h
    cases told_of_mem_actions h with
    | subscribes x subscribe => exact ⟨subscribe, rfl, rfl⟩
  · rintro ⟨subscribe, rfl, rfl⟩
    exact List.mem_cons_self

theorem unsubscribe_mem_actions_iff {filters : List Bytes} :
    .unsubscribe filters ∈ m.actions connections event ↔
      ∃ x unsubscribe, event = .clientUnsubscribed x unsubscribe ∧
        filters = unsubscribe.topicFilters := by
  constructor
  · intro h
    cases told_of_mem_actions h with
    | unsubscribes x unsubscribe => exact ⟨x, unsubscribe, rfl, rfl⟩
  · rintro ⟨x, unsubscribe, rfl, rfl⟩
    exact List.mem_cons_self

theorem keep_mem_actions_iff {topic applicationMessage : Bytes} :
    .keep topic applicationMessage ∈ m.actions connections event ↔
      ∃ x p, event = .clientPublished x p ∧ p.retain = true ∧ p.topic = topic ∧
        p.applicationMessage = applicationMessage ∧ (m.sessions.lookup x).isSome = true := by
  constructor
  · intro h
    cases told_of_mem_actions h with
    | retains x p entry hentry hretain =>
        exact ⟨x, p, rfl, hretain, rfl, rfl, by rw [hentry, Option.isSome_some]⟩
  · rintro ⟨x, p, rfl, hretain, rfl, rfl, hsome⟩
    obtain ⟨entry, hentry⟩ := Option.isSome_iff_exists.mp hsome
    simp only [actions, hentry, publishActions, hretain, if_true]
    exact List.mem_cons_self

end SessionManager

/-! ## What is delivered -/

@[simp]
theorem deliveries_nil : deliveries [] = [] := rfl

@[simp]
theorem deliveries_append (xs ys : List Effect) :
    deliveries (xs ++ ys) = deliveries xs ++ deliveries ys := by
  rw [deliveries, List.filterMap_append, List.map_append]
  rfl

@[simp]
theorem deliveries_publish (p : Publish) (effects : List Effect) :
    deliveries (.publish p :: effects) = deliveries effects := rfl

namespace SessionManager

variable {m m' : SessionManager} {connections : Connections} {event : Event}
  {effects : List Effect} {x : Bytes} {entry : SessionEntry} {calls : List SenderCall}
  {p p' : Publish} {qos : QoS}

/-- Calls that publish nothing deliver nothing. -/
theorem deliveries_callsOf_of_quiet (hquiet : ∀ p, .publish p ∉ sentPackets calls) :
    deliveries (callsOf x entry calls) = [] := by
  rw [deliveries, List.map_eq_nil_iff, List.filterMap_eq_nil_iff]
  intro effect hmem
  obtain ⟨call, hcall, rfl⟩ := List.mem_map.mp hmem
  cases call with
  | stop message => rfl
  | send packet =>
      cases packet with
      | publish p =>
          have hsent : .publish p ∈ sentPackets calls := List.mem_filterMap.mpr ⟨_, hcall, rfl⟩
          exact absurd hsent (hquiet p)
      | connect | connack | publishAck | subscribe | suback | unsubscribe | unsuback | pingreq
      | pingresp | disconnect => rfl

/-- What a session is delivered when it is handed a packet. -/
def handedTo (isConnected : Bool) (x : Bytes) (entry : SessionEntry) (p : Publish) (qos : QoS) :
    Option BrokerDelivery :=
  if isConnected = true ∧ qos ≠ .reserved then
    some ⟨x, entry.connection, p.topic, p.applicationMessage, qos, p.retain⟩
  else none

theorem deliveries_of_handed (x : Bytes) (entry : SessionEntry) {s s' : MqttClientSession}
    {isConnected : Bool} (h : s.publish isConnected p qos = .ok (calls, p', s')) :
    deliveries (callsOf x entry calls) = (handedTo isConnected x entry p qos).toList ∧
      p'.topic = p.topic ∧ p'.applicationMessage = p.applicationMessage ∧
        p'.retain = p.retain := by
  have hsent : ∀ {q out}, q ≠ .reserved → out.topic = p.topic →
      out.applicationMessage = p.applicationMessage → out.qos = q → out.retain = p.retain →
        deliveries (callsOf x entry [.send (.publish out)]) =
          (handedTo true x entry p q).toList := by
    intro q out hq htopic hmessage hqos hretain
    rw [handedTo, if_pos ⟨rfl, hq⟩, ← htopic, ← hmessage, ← hqos, ← hretain]
    rfl
  obtain ⟨t, ht, -⟩ := MqttClientSession.publish_eq_ok_iff.mp h
  cases TxInFlightPublications.publishes_of_publish ht with
  | nothing _ _ hreserved =>
      refine ⟨?_, rfl, rfl, rfl⟩
      rw [handedTo, if_neg fun hserved => hserved.2 (hreserved hserved.1)]
      rfl
  | itself outgoing hset =>
      obtain ⟨htopic, -, hmessage⟩ := Publish.setQos_frame hset
      have hretain := (Publish.flags_of_setQos hset).2
      exact ⟨hsent (by simp) htopic hmessage (Publish.qos_of_setQos hset) hretain, htopic,
        hmessage, hretain⟩
  | copy _ hqos outgoing hset hfree =>
      obtain ⟨htopic, -, hmessage⟩ := Publish.setQos_frame hset
      refine ⟨hsent ?_ htopic hmessage (Publish.qos_of_setQos hset)
        (Publish.flags_of_setQos hset).2, rfl, rfl, rfl⟩
      rcases hqos with rfl | rfl <;> simp

/-! ## The broker after a change -/

variable (m) in
theorem session_broker (x : Bytes) :
    m.broker.session x = (m.sessions.lookup x).map SessionEntry.connection := rfl

theorem session_of_lookup (hentry : m.sessions.lookup x = some entry) :
    m.broker.session x = some entry.connection := by
  rw [session_broker, hentry, Option.map_some]

@[simp]
theorem broker_update (session : MqttClientSession) : (m.update x session).broker = m.broker := by
  have hsession : (fun y => ((m.update x session).sessions.lookup y).map SessionEntry.connection) =
      fun y => (m.sessions.lookup y).map SessionEntry.connection := by
    funext y
    rw [lookup_update]
    split
    · rw [Option.map_map]
      rfl
    · rfl
  rw [broker, broker, hsession, topicSubscriptions_update, retainedMessages_update]

theorem broker_remove : (m.remove x).broker = m.broker.next conventions (.leave x) := by
  have hsession : (fun y => ((m.remove x).sessions.lookup y).map SessionEntry.connection) =
      Function.update (fun y => (m.sessions.lookup y).map SessionEntry.connection) x none := by
    funext y
    rw [sessions_remove, Table.lookup_erase, Function.update_apply]
    split <;> rfl
  rw [broker, hsession]
  rfl

/-- Only the contents of retained messages matter. -/
theorem broker_withRetained {t : RetainedMessages} (h : t.contents = m.retainedMessages.contents) :
    ({ m with retainedMessages := t } : SessionManager).broker = m.broker := by
  rw [broker, broker, h]

/-! ## Publishing -/

/-- What a subscriber is delivered. -/
def subscriberDelivery (m : SessionManager) (connections : Connections) (p : Publish)
    (subscriber : Bytes × QoS) : Option BrokerDelivery :=
  match m.sessions.lookup subscriber.1 with
  | some entry =>
      handedTo (connected connections entry) subscriber.1 entry p subscriber.2
  | none => none

/-- A session that is handed a packet leaves the other subscribers theirs. -/
theorem subscriberDelivery_update {session : MqttClientSession} {subscriber : Bytes × QoS}
    (hne : subscriber.1 ≠ x) (htopic : p'.topic = p.topic)
    (hmessage : p'.applicationMessage = p.applicationMessage) (hretain : p'.retain = p.retain) :
    subscriberDelivery (m.update x session) connections p' subscriber =
      subscriberDelivery m connections p subscriber := by
  unfold subscriberDelivery handedTo
  rw [lookup_update_of_ne session hne, htopic, hmessage, hretain]

/-- What the loop over the subscribers delivers. -/
theorem deliveries_of_publishTo {subscribers : List (Bytes × QoS)}
    (hnodup : (subscribers.map Prod.fst).Nodup)
    (h : publishTo connections subscribers p m = .ok (effects, p', m')) :
    deliveries effects = subscribers.filterMap (subscriberDelivery m connections p) ∧
      m'.broker = m.broker ∧ p'.topic = p.topic ∧
        p'.applicationMessage = p.applicationMessage := by
  induction subscribers generalizing m p effects with
  | nil =>
      cases h
      exact ⟨rfl, rfl, rfl, rfl⟩
  | cons subscriber rest ih =>
      obtain ⟨x, q⟩ := subscriber
      rw [List.map_cons, List.nodup_cons] at hnodup
      obtain ⟨hx, hrest⟩ := hnodup
      cases hentry : m.sessions.lookup x with
      | none =>
          rw [publishTo_cons_of_none hentry] at h
          have hnothing : subscriberDelivery m connections p (x, q) = none := by
            rw [subscriberDelivery, hentry]
          rw [List.filterMap_cons_none hnothing]
          exact ih hrest h
      | some entry =>
          obtain ⟨calls, p₁, session, effects₁, hpublish, hloop, rfl⟩ :=
            (publishTo_cons_eq_ok_iff hentry).mp h
          obtain ⟨hcalls, htopic, hmessage, hretain⟩ :=
            deliveries_of_handed x entry hpublish
          obtain ⟨hdeliveries, hbroker, htopic', hmessage'⟩ := ih hrest hloop
          refine ⟨?_, hbroker.trans (broker_update session), htopic'.trans htopic,
            hmessage'.trans hmessage⟩
          have hfirst : subscriberDelivery m connections p (x, q) =
              handedTo (connected connections entry) x entry p q := by
            rw [subscriberDelivery, hentry]
          have hothers : rest.filterMap
                (subscriberDelivery (m.update x session) connections p₁) =
              rest.filterMap (subscriberDelivery m connections p) := by
            apply List.filterMap_congr
            intro other hmem
            have hne : other.1 ≠ x := fun heq =>
              hx (List.mem_map.mpr ⟨other, hmem, heq⟩)
            exact subscriberDelivery_update hne htopic hmessage hretain
          rw [deliveries_append, hcalls, hdeliveries, hothers, List.filterMap_cons, hfirst]
          cases handedTo (connected connections entry) x entry p q <;> rfl

/-- The qualities of service of matching subscriptions are what the broker has granted. -/
theorem granted_broker (m : SessionManager) (x topic : Bytes) :
    m.broker.granted conventions x topic = m.topicSubscriptions.matchingQos x topic := by
  ext q
  constructor
  · rintro ⟨topicFilter, hcovers, hmem⟩
    exact ⟨_, hmem, rfl, hcovers, rfl⟩
  · rintro ⟨⟨topicFilter, q, y⟩, hmem, rfl, hcovers, rfl⟩
    exact ⟨topicFilter, hcovers, hmem⟩

/-- A subscriber is delivered a packet exactly if the broker owes it. -/
theorem mem_subscriberDeliveries_iff (hretain : p.retain = false) {d : BrokerDelivery} :
    d ∈ (m.topicSubscriptions.resolveSubscribers p).filterMap
        (subscriberDelivery m connections p) ↔
      m.broker.Owes conventions (reachable connections)
        (.publish p.topic p.applicationMessage) d := by
  rw [List.mem_filterMap]
  constructor
  · rintro ⟨⟨y, q⟩, hmem, hdelivery⟩
    rw [TopicSubscriptions.mem_resolveSubscribers_iff, ← granted_broker] at hmem
    rw [subscriberDelivery] at hdelivery
    split at hdelivery
    · rename_i entry hentry
      rw [handedTo, Option.ite_none_right_eq_some] at hdelivery
      obtain ⟨⟨hconnected, hserved⟩, heq⟩ := hdelivery
      cases heq
      rw [hretain]
      exact .published (session_of_lookup hentry) hconnected hmem hserved
    · cases hdelivery
  · intro howes
    cases howes with
    | @published _ _ y k q hsession hreachable hlevel hserved =>
        rw [granted_broker, ← TopicSubscriptions.mem_resolveSubscribers_iff] at hlevel
        refine ⟨(y, q), hlevel, ?_⟩
        obtain ⟨entry, hentry, rfl⟩ := Option.map_eq_some_iff.mp hsession
        rw [subscriberDelivery, hentry]
        simp only [handedTo]
        rw [if_pos ⟨hreachable, hserved⟩, hretain]

/-- No subscriber is delivered a packet twice. -/
theorem nodup_subscriberDeliveries : ((m.topicSubscriptions.resolveSubscribers p).filterMap
    (subscriberDelivery m connections p)).Nodup := by
  have hsame : ∀ subscriber d, d ∈ subscriberDelivery m connections p subscriber →
      (d.client, d.level) = subscriber := by
    intro subscriber d hd
    rw [Option.mem_def, subscriberDelivery] at hd
    split at hd
    · rw [handedTo, Option.ite_none_right_eq_some] at hd
      cases hd.2
      rfl
    · cases hd
  refine List.Nodup.filterMap ?_
    (List.Nodup.of_map _ TopicSubscriptions.nodup_resolveSubscribers)
  intro subscriber subscriber' d hd hd'
  rw [← hsame subscriber d hd, hsame subscriber' d hd']

/-- Publishing a packet delivers what the broker owes, each once. -/
theorem deliveries_of_publish (hretain : p.retain = false)
    (h : m.publish connections p = .ok (effects, p', m')) :
    (deliveries effects).Nodup ∧
      (∀ d, d ∈ deliveries effects ↔ m.broker.Owes conventions (reachable connections)
        (.publish p.topic p.applicationMessage) d) ∧
      m'.broker = m.broker ∧ p'.topic = p.topic ∧
        p'.applicationMessage = p.applicationMessage := by
  obtain ⟨calls, hloop, rfl⟩ := publish_eq_ok_iff_publishTo.mp h
  obtain ⟨hdeliveries, hbroker, hsame⟩ :=
    deliveries_of_publishTo TopicSubscriptions.nodup_resolveSubscribers hloop
  rw [deliveries_publish, hdeliveries]
  exact ⟨nodup_subscriberDeliveries, fun d => mem_subscriberDeliveries_iff hretain, hbroker,
    hsame⟩

/-! ## Retained messages -/

/-- A message that has been handed to a session is retained as it was. -/
theorem contents_update {t : RetainedMessages} (hp : (p.topic, p.applicationMessage) ∈ t.contents) :
    (t.update p).contents = t.contents := by
  rw [RetainedMessages.contents, RetainedMessages.contents, RetainedMessages.update, List.map_map]
  apply List.map_congr_left
  intro kept hkept
  rw [Function.comp_apply]
  split
  · rename_i htopic
    obtain ⟨kept', hkept', heq⟩ := List.mem_map.mp hp
    obtain ⟨htopic', hmessage⟩ := Prod.mk.inj heq
    have hsame : kept' = kept :=
      List.inj_on_of_nodup_map t.nodup hkept' hkept (htopic'.trans htopic.symm)
    rw [← hsame, heq]
  · rfl

/-- What the loop over the retained messages delivers. -/
theorem deliveries_of_publishRetained (x : Bytes) (entry : SessionEntry) {isConnected : Bool}
    {messages : List (Publish × QoS)} {t t' : RetainedMessages} {s s' : MqttClientSession}
    (hmessages : ∀ message ∈ messages,
      (message.1.topic, message.1.applicationMessage) ∈ t.contents)
    (h : publishRetained isConnected messages t s = .ok (calls, t', s')) :
    deliveries (callsOf x entry calls) =
        messages.filterMap (fun message => handedTo isConnected x entry message.1 message.2) ∧
      t'.contents = t.contents ∧ ∀ message ∈ messages, message.1.retain = true := by
  induction messages generalizing t s calls with
  | nil =>
      cases h
      exact ⟨rfl, rfl, fun _ hmem => absurd hmem List.not_mem_nil⟩
  | cons message rest ih =>
      obtain ⟨p, q⟩ := message
      obtain ⟨hretain, hpublish⟩ := assert_bind_eq_ok_iff.mp h
      obtain ⟨⟨calls₁, p', s₁⟩, hsession, hloop⟩ := bind_eq_ok_iff.mp hpublish
      obtain ⟨⟨calls₂, t₂, s₂⟩, hrest, hresult⟩ := bind_eq_ok_iff.mp hloop
      cases hresult
      obtain ⟨hcalls, htopic, hmessage, -⟩ :=
        deliveries_of_handed x entry hsession
      have hsame : (t.update p').contents = t.contents := by
        apply contents_update
        rw [htopic, hmessage]
        exact hmessages (p, q) List.mem_cons_self
      obtain ⟨hdeliveries, hcontents, hall⟩ := ih (t := t.update p') (fun message hmem => by
        rw [hsame]
        exact hmessages message (List.mem_cons_of_mem _ hmem)) hrest
      refine ⟨?_, hcontents.trans hsame, ?_⟩
      · rw [callsOf, List.map_append, deliveries_append]
        rw [callsOf] at hcalls hdeliveries
        rw [hcalls, hdeliveries, List.filterMap_cons]
        cases handedTo isConnected x entry p q <;> rfl
      · intro message hmem
        rcases List.mem_cons.mp hmem with rfl | hmem
        · exact hretain
        · exact hall message hmem

theorem requested_requestsOf (subscribe : Subscribe) (topic : Bytes) :
    Broker.requested conventions (requestsOf subscribe) topic =
      {q | ∃ subscr ∈ subscribe.subscriptions,
        topicFilterMatchesTopic subscr.topicFilter topic = true ∧ subscr.maximumQos = q} := by
  ext q
  constructor
  · rintro ⟨topicFilter, hcovers, hmem⟩
    obtain ⟨subscr, hsubscr, heq⟩ := List.mem_map.mp hmem
    cases heq
    exact ⟨subscr, hsubscr, hcovers, rfl⟩
  · rintro ⟨subscr, hsubscr, hcovers, rfl⟩
    exact ⟨subscr.topicFilter, hcovers, List.mem_map.mpr ⟨subscr, hsubscr, rfl⟩⟩

/-- A client that subscribes is delivered a retained message exactly if the broker owes it. -/
theorem mem_retainedDeliveries_iff (connections : Connections) {subscribe : Subscribe}
    (hentry : m.sessions.lookup x = some entry)
    (hretain : ∀ message ∈ m.retainedMessages.messagesFor subscribe, message.1.retain = true)
    {d : BrokerDelivery} :
    d ∈ (m.retainedMessages.messagesFor subscribe).filterMap (fun message =>
        handedTo (connected connections entry) x entry message.1 message.2) ↔
      m.broker.Owes conventions (reachable connections) (.subscribe x (requestsOf subscribe))
        d := by
  rw [List.mem_filterMap]
  constructor
  · rintro ⟨⟨p, q⟩, hmem, hdelivery⟩
    have hretained := hretain _ hmem
    rw [RetainedMessages.mem_messagesFor_iff, ← requested_requestsOf] at hmem
    rw [handedTo, Option.ite_none_right_eq_some] at hdelivery
    obtain ⟨⟨hconnected, hserved⟩, heq⟩ := hdelivery
    cases heq
    rw [hretained]
    exact .kept (session_of_lookup hentry) hconnected (List.mem_map.mpr ⟨p, hmem.1, rfl⟩)
      hmem.2 hserved
  · intro howes
    cases howes with
    | @kept _ _ k topic message q hsession hreachable hkept hlevel hserved =>
        rw [session_of_lookup hentry] at hsession
        cases hsession
        obtain ⟨p, hp, heq⟩ := List.mem_map.mp hkept
        cases heq
        rw [requested_requestsOf] at hlevel
        have hmem := RetainedMessages.mem_messagesFor_iff.mpr ⟨hp, hlevel⟩
        refine ⟨(p, q), hmem, ?_⟩
        simp only [handedTo]
        rw [if_pos ⟨hreachable, hserved⟩, hretain _ hmem]

/-- No retained message is delivered twice. -/
theorem nodup_retainedDeliveries {subscribe : Subscribe} {isConnected : Bool} :
    ((m.retainedMessages.messagesFor subscribe).filterMap (fun message =>
      handedTo isConnected x entry message.1 message.2)).Nodup := by
  have hnodup : (m.retainedMessages.messagesFor subscribe).Nodup :=
    List.Nodup.of_map _ (KeyedMaximum.nodup_keys_collect _)
  rw [List.Nodup, List.pairwise_filterMap]
  refine hnodup.imp_of_mem ?_
  rintro ⟨p, q⟩ ⟨p', q'⟩ hmem hmem' hne d hd d' hd' rfl
  rw [handedTo, Option.ite_none_right_eq_some] at hd hd'
  obtain ⟨-, heq⟩ := hd
  cases heq
  obtain ⟨-, heq⟩ := hd'
  injection heq with heq
  injection heq with hclient hendpoint htopic hmessage hlevel
  have hp := (RetainedMessages.mem_messagesFor_iff.mp hmem).1
  have hp' := (RetainedMessages.mem_messagesFor_iff.mp hmem').1
  have hsame : p' = p := List.inj_on_of_nodup_map m.retainedMessages.nodup hp' hp htopic
  exact hne (Prod.ext hsame.symm hlevel.symm)

/-! ## Every event is a trace of the broker -/

variable (m) in
theorem broker_subscribe (x : Bytes) (subscribe : Subscribe) :
    ({ m with topicSubscriptions := (m.topicSubscriptions.subscribe x subscribe).2 } :
      SessionManager).broker = m.broker.next conventions (.subscribe x (requestsOf subscribe)) := by
  have hsubscriptions : {s : Bytes × Bytes × QoS | (⟨s.2.1, s.2.2, s.1⟩ : SubscriptionContainer) ∈
        (m.topicSubscriptions.subscribe x subscribe).2.subscriptions} =
      {s | s.1 = x ∧ s.2 ∈ requestsOf subscribe ∨
        (⟨s.2.1, s.2.2, s.1⟩ : SubscriptionContainer) ∈ m.topicSubscriptions.subscriptions} := by
    ext ⟨y, topicFilter, q⟩
    rw [Set.mem_ofPred_eq, Set.mem_ofPred_eq, TopicSubscriptions.subscribe,
      TopicSubscriptions.mem_emplaceAll, or_comm]
    simp only [TopicSubscriptions.requested, requestsOf, List.mem_map, Prod.mk.injEq,
      SubscriptionContainer.mk.injEq]
    constructor
    · rintro (⟨subscr, hsubscr, rfl, rfl, rfl⟩ | hmem)
      · exact Or.inl ⟨rfl, subscr, hsubscr, rfl, rfl⟩
      · exact Or.inr hmem
    · rintro (⟨rfl, subscr, hsubscr, rfl, rfl⟩ | hmem)
      · exact Or.inl ⟨subscr, hsubscr, rfl, rfl, rfl⟩
      · exact Or.inr hmem
  rw [broker, hsubscriptions]
  rfl

variable (m) in
theorem broker_unsubscribe (x : Bytes) (unsubscribe : Unsubscribe) :
    ({ m with topicSubscriptions := (m.topicSubscriptions.unsubscribe x unsubscribe).2 } :
      SessionManager).broker =
        m.broker.next conventions (.unsubscribe unsubscribe.topicFilters) := by
  have hsubscriptions : {s : Bytes × Bytes × QoS | (⟨s.2.1, s.2.2, s.1⟩ : SubscriptionContainer) ∈
        (m.topicSubscriptions.unsubscribe x unsubscribe).2.subscriptions} =
      {s | (⟨s.2.1, s.2.2, s.1⟩ : SubscriptionContainer) ∈ m.topicSubscriptions.subscriptions ∧
        s.2.1 ∉ unsubscribe.topicFilters} := by
    ext s
    exact TopicSubscriptions.mem_unsubscribe_iff
  rw [broker, hsubscriptions]
  rfl

theorem broker_retain {t : RetainedMessages} (h : m.retainedMessages.retain p = .ok t) :
    ({ m with retainedMessages := t } : SessionManager).broker =
      m.broker.next conventions (.keep p.topic p.applicationMessage) := by
  have hkept : {e | e ∈ t.contents} =
      {e | e = (p.topic, p.applicationMessage) ∧ ¬ conventions.Blank e.2 ∨
        e ∈ m.retainedMessages.contents ∧ e.1 ≠ p.topic} := by
    ext ⟨topic, message⟩
    simp only [Set.mem_ofPred_eq, RetainedMessages.contents, List.mem_map,
      RetainedMessages.mem_retain_iff h, Prod.mk.injEq]
    constructor
    · rintro ⟨p', ⟨rfl, hpos⟩ | ⟨hmem, hne⟩, rfl, rfl⟩
      · exact Or.inl ⟨⟨rfl, rfl⟩, List.ne_nil_of_length_pos hpos⟩
      · exact Or.inr ⟨⟨p', hmem, rfl, rfl⟩, hne⟩
    · rintro (⟨⟨rfl, rfl⟩, hblank⟩ | ⟨⟨p', hmem, rfl, rfl⟩, hne⟩)
      · exact ⟨p, Or.inl ⟨rfl, List.length_pos_iff.mpr hblank⟩, rfl, rfl⟩
      · exact ⟨p', Or.inr ⟨hmem, hne⟩, rfl, rfl⟩
  rw [broker, hkept]
  rfl

/-- An action that nothing is delivered in. -/
theorem acts_quiet (connections : Connections) {b : Broker Bytes ConnectionId Bytes Bytes QoS Bytes}
    {a : BrokerAction} (hquiet : ∀ d, ¬ b.Owes conventions (reachable connections) a d) :
    Broker.Acts conventions b [.input (reachable connections) a] (b.next conventions a) :=
  .act _ a [] List.nodup_nil fun d => iff_of_false List.not_mem_nil (hquiet d)

/-- A session whose connection is gone is left. -/
theorem trace_of_leftBehind {b : Broker Bytes ConnectionId Bytes Bytes QoS Bytes}
    (hentry : m.sessions.lookup x = some entry) (hgone : connected connections entry = false) :
    Trace (Broker.Acts conventions) b
      ((m.leftBehind connections x).map (.input (reachable connections)))
      (b.next conventions (.leave entry.session.clientId)) := by
  have hleft : m.leftBehind connections x = [.leave entry.session.clientId] := by
    rw [leftBehind, hentry]
    simp only [hgone, Bool.false_eq_true, if_false]
  rw [hleft]
  exact Trace.single (acts_quiet _ (fun d howes => by cases howes))

/-- A session is left behind for no other reason. -/
theorem gone_of_leftBehind (h : m.leftBehind connections x ≠ []) :
    ∃ entry, m.sessions.lookup x = some entry ∧ connected connections entry = false := by
  rw [leftBehind] at h
  split at h
  · rename_i entry hentry
    rw [ne_eq, ite_eq_left_iff, not_forall] at h
    obtain ⟨hgone, -⟩ := h
    exact ⟨entry, hentry, Bool.eq_false_iff.mpr hgone⟩
  · exact absurd rfl h

theorem leftBehind_of_connected (hentry : m.sessions.lookup x = some entry)
    (hconnected : connected connections entry = true) : m.leftBehind connections x = [] := by
  rw [leftBehind, hentry]
  exact if_pos hconnected

theorem leftBehind_of_none (hnone : m.sessions.lookup x = none) :
    m.leftBehind connections x = [] := by
  rw [leftBehind, hnone]

/-- A SUBSCRIBE, and the retained messages that it asks for. -/
theorem refines_clientSubscribed {subscribe : Subscribe}
    (h : m.clientSubscribed connections x subscribe = .ok (effects, m')) :
    Trace (Broker.Acts conventions) m.broker
      (m.observed connections (.clientSubscribed x subscribe) effects) m'.broker := by
  have hsubscribed := broker_subscribe m x subscribe
  simp only [clientSubscribed] at h
  generalize hafter : ({ m with
    topicSubscriptions := (m.topicSubscriptions.subscribe x subscribe).2 } : SessionManager) = t
    at h hsubscribed
  have hretained : t.retainedMessages = m.retainedMessages := by rw [← hafter]
  have hsend : ∀ entry packet, (t.send connections x entry packet).2.retainedMessages =
      m.retainedMessages := by
    intro entry packet
    rw [← hretained, send]
    split <;> rfl
  cases hentry : m.sessions.lookup x with
  | none =>
      rw [hentry] at h
      cases h
      rw [observed, actions, leftBehind_of_none hentry, hsubscribed]
      refine Trace.single (acts_quiet _ fun d howes => ?_)
      cases howes with
      | kept hsession =>
          rw [session_broker, hentry] at hsession
          cases hsession
  | some entry =>
      simp only [hentry, hsend] at h
      obtain ⟨⟨calls, r, session⟩, hloop, hresult⟩ := bind_eq_ok_iff.mp h
      obtain ⟨hdeliveries, hcontents, hretain⟩ := deliveries_of_publishRetained x
        entry (fun message hmem => List.mem_map.mpr
          ⟨message.1, (RetainedMessages.mem_messagesFor_iff.mp hmem).1, rfl⟩) hloop
      have hact := Broker.Acts.act (reachable connections)
        (.subscribe x (requestsOf subscribe)) _ (nodup_retainedDeliveries (x := x))
        fun d => mem_retainedDeliveries_iff connections hentry hretain
      rw [← hsubscribed] at hact
      cases hconnected : connected connections entry with
      | true =>
          simp only [send, hconnected, if_true] at hresult hdeliveries hact
          cases hresult
          have hsuback : deliveries (callsOf x entry [.send (.suback
              (m.topicSubscriptions.subscribe x subscribe).1)]) = [] := rfl
          have hbroker : ({ t.update x session with retainedMessages := r } :
              SessionManager).broker = t.broker := by
            rw [broker_withRetained, broker_update]
            rw [hcontents, retainedMessages_update, hretained]
          rw [observed, actions, leftBehind_of_connected hentry hconnected, hbroker]
          simp only [Event.hands, if_true]
          rw [deliveries_append, hsuback, List.nil_append, hdeliveries]
          exact Trace.single hact
      | false =>
          simp only [send, hconnected, Bool.false_eq_true, if_false] at hresult hdeliveries hact
          cases hresult
          have hnone : (m.retainedMessages.messagesFor subscribe).filterMap (fun message =>
              handedTo false x entry message.1 message.2) = [] := by
            rw [List.filterMap_eq_nil_iff]
            intro message hmem
            exact if_neg fun hserved => Bool.false_ne_true hserved.1
          have hbroker : ({ (t.destroy entry.session.clientId).update x session with
              retainedMessages := r } : SessionManager).broker =
                t.broker.next conventions (.leave entry.session.clientId) := by
            rw [broker_withRetained, broker_update]
            · exact broker_remove
            · rw [hcontents, retainedMessages_update]
              exact congrArg _ hretained.symm
          rw [hnone] at hdeliveries hact
          rw [observed, actions, hbroker]
          simp only [Event.hands, if_true]
          rw [List.nil_append, hdeliveries, List.map_nil, List.append_nil, List.map_cons]
          exact Trace.cons hact (trace_of_leftBehind hentry hconnected)

theorem observed_of_not_hands (hhands : event.hands = false) :
    m.observed connections event effects =
      (m.actions connections event).map (.input (reachable connections)) := by
  rw [observed, hhands, if_neg Bool.false_ne_true, List.map_nil, List.append_nil]

/-- An UNSUBSCRIBE. -/
theorem refines_clientUnsubscribed (m : SessionManager) (connections : Connections) (x : Bytes)
    (unsubscribe : Unsubscribe) :
    Trace (Broker.Acts conventions) m.broker
      (m.observed connections (.clientUnsubscribed x unsubscribe)
        (m.clientUnsubscribed connections x unsubscribe).1)
      (m.clientUnsubscribed connections x unsubscribe).2.broker := by
  have hunsubscribed := broker_unsubscribe m x unsubscribe
  have hact := acts_quiet connections (b := m.broker)
    (a := .unsubscribe unsubscribe.topicFilters) (fun d howes => by cases howes)
  rw [← hunsubscribed] at hact
  rw [observed_of_not_hands rfl, actions, List.map_cons]
  simp only [clientUnsubscribed]
  cases hentry : m.sessions.lookup x with
  | none =>
      rw [leftBehind_of_none hentry]
      exact Trace.single hact
  | some entry =>
      cases hconnected : connected connections entry with
      | true =>
          rw [leftBehind_of_connected hentry hconnected]
          simp only [send, hconnected, if_true]
          exact Trace.single hact
      | false =>
          simp only [send, hconnected, Bool.false_eq_true, if_false]
          rw [destroy, broker_remove]
          exact Trace.cons hact (trace_of_leftBehind hentry hconnected)

/-- A PUBLISH of a client is published unless it is a copy.  What has been retained makes no
difference. -/
theorem refines_clientSentPublish (hretain : p.retain = false)
    (h : m.clientSentPublish connections x entry p = .ok (effects, p', m'))
    {b : Broker Bytes ConnectionId Bytes Bytes QoS Bytes} (hsession : b.session = m.broker.session)
    (hsubscriptions : b.subscriptions = m.broker.subscriptions) :
    Trace (Broker.Acts conventions) b
        ((forwardActions entry p).map (.input (reachable connections)) ++
          (deliveries effects).map .output) b ∧
      m'.broker = m.broker ∧ p'.topic = p.topic ∧
        p'.applicationMessage = p.applicationMessage := by
  obtain ⟨⟨dispatchPublish, calls, session⟩, hanswer, hrest⟩ := bind_eq_ok_iff.mp h
  have hquiet : deliveries (callsOf x entry calls) = [] := deliveries_callsOf_of_quiet
    (MqttClientSession.onlyAcks_of_clientSentPublish hanswer).not_publish
  obtain ⟨t, ht, -⟩ := MqttClientSession.clientSentPublish_eq_ok_iff.mp hanswer
  cases hp : entry.session.rxInFlightPublications.publications.lookup p.packetIdentifier with
  | some stored =>
      rw [RxInFlightPublications.clientSentPublish_duplicate hp] at ht
      cases ht
      cases hrest
      have hcopy : forwardActions entry p = [] := if_pos (by simp [Table.contains, hp])
      rw [hcopy, hquiet]
      exact ⟨Trace.nil b, broker_update session, rfl, rfl⟩
  | none =>
      rw [RxInFlightPublications.clientSentPublish_of_free _ hp] at ht
      cases ht
      obtain ⟨⟨more, published, m''⟩, hpublish, hresult⟩ := bind_eq_ok_iff.mp hrest
      cases hresult
      have hfirst : forwardActions entry p = [.publish p.topic p.applicationMessage] :=
        if_neg (by simp [Table.contains, hp])
      obtain ⟨hnodup, howes, hbroker, hsame⟩ := deliveries_of_publish hretain hpublish
      rw [broker_update] at howes hbroker
      rw [hfirst, deliveries_append, hquiet, List.nil_append]
      refine ⟨Trace.single ?_, hbroker, hsame⟩
      exact .act _ (.publish p.topic p.applicationMessage) _ hnodup fun d =>
        (howes d).trans (Broker.owes_publish_congr hsession hsubscriptions).symm

/-- A PUBLISH of a client, which may be retained. -/
theorem refines_clientPublished
    (h : m.clientPublished connections x p = .ok (effects, m')) :
    Trace (Broker.Acts conventions) m.broker
      (m.observed connections (.clientPublished x p) effects) m'.broker := by
  simp only [clientPublished] at h
  rw [observed, actions]
  simp only [Event.hands, if_true]
  cases hentry : m.sessions.lookup x with
  | none =>
      rw [hentry] at h
      cases h
      exact Trace.nil m.broker
  | some entry =>
      simp only [hentry] at h ⊢
      by_cases hretain : p.retain = true
      · rw [if_pos hretain] at h
        obtain ⟨⟨more, p', m''⟩, hsession, hrest⟩ := bind_eq_ok_iff.mp h
        obtain ⟨r, hkept, hresult⟩ := bind_eq_ok_iff.mp hrest
        cases hresult
        obtain ⟨htrace, hbroker, htopic, hmessage⟩ := refines_clientSentPublish
          (p.retain_setRetain false) hsession
          (b := m.broker.next conventions (.keep p.topic p.applicationMessage)) rfl rfl
        have hafter := broker_retain hkept
        rw [hbroker] at hafter
        have htopic' : (p'.setRetain true).topic = p.topic := htopic
        have hmessage' : (p'.setRetain true).applicationMessage = p.applicationMessage := hmessage
        rw [htopic', hmessage'] at hafter
        rw [publishActions, if_pos hretain, hafter, List.map_cons, List.cons_append]
        exact Trace.cons (acts_quiet _ (fun d howes => by cases howes)) htrace
      · rw [if_neg hretain] at h
        obtain ⟨⟨more, p', m''⟩, hsession, hresult⟩ := bind_eq_ok_iff.mp h
        cases hresult
        obtain ⟨htrace, hbroker, -⟩ := refines_clientSentPublish
          (Bool.eq_false_iff.mpr hretain) hsession (b := m.broker) rfl rfl
        rw [publishActions, if_neg hretain, hbroker]
        exact htrace

/-- A client that has gone, and its last will. -/
theorem refines_clientDisconnectedUngracefully {reason : DisconnectReason}
    (h : m.clientDisconnectedUngracefully connections x reason = .ok (effects, m')) :
    Trace (Broker.Acts conventions) m.broker
      (m.observed connections (.clientDisconnectedUngracefully x reason) effects) m'.broker := by
  have hleave : Broker.Acts conventions m.broker [.input (reachable connections) (.leave x)]
      (m.remove x).broker := by
    rw [broker_remove]
    exact acts_quiet _ (fun d howes => by cases howes)
  rw [observed, actions]
  simp only [Event.hands, if_true]
  rcases clientDisconnectedUngracefully_eq_ok_iff.mp h with
    ⟨entry, lwt, p, hentry, hwill, hpublish⟩ | ⟨entry, hentry, hwill, rfl, rfl⟩ |
      ⟨hnone, rfl, rfl⟩
  · have hretain : lwt.retain = false := by
      obtain ⟨connect, -, rfl⟩ := Option.map_eq_some_iff.mp hwill
      exact Publish.retain_create _ _ _ _ _ _
    obtain ⟨hnodup, howes, hbroker, -⟩ := deliveries_of_publish hretain hpublish
    simp only [hentry, willActions, hwill]
    rw [hbroker, List.map_cons, List.cons_append]
    exact Trace.cons hleave (Trace.single
      (.act _ (.publish lwt.topic lwt.applicationMessage) _ hnodup howes))
  · simp only [hentry, willActions, hwill]
    exact Trace.single hleave
  · simp only [hnone]
    exact Trace.nil _

/-- A client that has connected. -/
theorem refines_clientConnected {connect : Connect} {connection : ConnectionId}
    (h : m.clientConnected connections connect connection = .ok m') :
    Trace (Broker.Acts conventions) m.broker
      (m.observed connections (.clientConnected connect connection) []) m'.broker := by
  have harrive : ∀ y, Broker.Acts conventions m.broker
      [.input (reachable connections) (.arrive y connection)]
        (m.broker.next conventions (.arrive y connection)) :=
    fun y => acts_quiet _ (fun d howes => by cases howes)
  rw [observed_of_not_hands rfl, actions]
  rcases clientConnected_eq_ok_iff.mp h with
    ⟨y, hy, hnone, rfl⟩ | ⟨y, entry, hy, hentry, rfl⟩ | ⟨hgone, rfl⟩
  · have hinserted : ∀ session : MqttClientSession,
        ({ m with sessions := m.sessions.insert y ⟨connection, session⟩ } :
          SessionManager).broker = m.broker.next conventions (.arrive y connection) := by
      intro session
      have hsession : m.broker.session y = none := by rw [session_broker, hnone, Option.map_none]
      simp only [Broker.next, hsession, Option.getD_none]
      rw [broker, broker]
      congr 1
      funext z
      rw [Table.lookup_insert, Function.update_apply]
      split <;> rfl
    simp only [hy]
    rw [hinserted]
    exact Trace.single (harrive y)
  · have hstays : m'.broker.next conventions (.arrive y connection) = m'.broker := by
      have hsession := session_of_lookup hentry
      simp only [Broker.next, hsession, Option.getD_some]
      rw [← hsession, Function.update_eq_self]
    have hact := harrive y
    rw [hstays] at hact
    simp only [hy]
    exact Trace.single hact
  · rw [hgone]
    exact Trace.nil _

/-- Events that only change single sessions are nothing to a broker. -/
theorem refines_silent (hactions : m.actions connections event = []) (hhands : event.hands = false)
    (hbroker : m'.broker = m.broker) :
    Trace (Broker.Acts conventions) m.broker (m.observed connections event effects) m'.broker := by
  rw [observed_of_not_hands hhands, hactions, hbroker]
  exact Trace.nil _

/-- An event is a sequence of actions of the broker, in which it delivers what it owes. -/
theorem refines_of_perform (h : m.perform connections event = some (.ok (effects, m'))) :
    Trace (Broker.Acts conventions) m.broker (m.observed connections event effects) m'.broker := by
  have hremoved : ∀ y, Trace (Broker.Acts conventions) m.broker
      [.input (reachable connections) (.leave y)] (m.remove y).broker := by
    intro y
    rw [broker_remove]
    exact Trace.single (acts_quiet _ (fun d howes => by cases howes))
  cases event with
  | clientConnected connect connection =>
      rw [perform, Option.some.injEq] at h
      obtain ⟨m'', hconnected, hresult⟩ := map_eq_ok_iff.mp h
      cases hresult
      exact refines_clientConnected hconnected
  | clientDisconnected x reason | destroy x =>
      cases h
      rw [observed_of_not_hands rfl]
      exact hremoved x
  | clientSubscribed x subscribe =>
      rw [perform, Option.some.injEq] at h
      exact refines_clientSubscribed h
  | clientUnsubscribed x unsubscribe =>
      rw [perform, Option.some.injEq, Except.ok.injEq] at h
      have htrace := refines_clientUnsubscribed m connections x unsubscribe
      rw [h] at htrace
      exact htrace
  | clientPublished x p =>
      rw [perform, Option.some.injEq] at h
      exact refines_clientPublished h
  | clientAcked x ack =>
      rw [perform, Option.some.injEq] at h
      have hanswer : ∀ {answer}, m.onSession connections x answer = .ok (effects, m') →
          m'.broker = m.broker := by
        intro answer hanswer
        rcases onSession_eq_ok_iff.mp hanswer with
          ⟨entry, calls, session, hentry, hsession, rfl, rfl⟩ | ⟨-, rfl, rfl⟩
        · exact broker_update session
        · rfl
      refine refines_silent rfl rfl ?_
      simp only [clientAcked, clientAckedPublish, clientReceivedPublish, clientReleasedPublish,
        clientCompletedPublish] at h
      cases ack <;> exact hanswer h
  | clientDisconnectedUngracefully x reason =>
      rw [perform, Option.some.injEq] at h
      exact refines_clientDisconnectedUngracefully h
  | txTimerElapses x i | rxTimerElapses x i =>
      obtain ⟨m'', hm, hresult⟩ := Option.map_eq_some_iff.mp h
      cases hresult
      obtain ⟨entry, session, hentry, hsession, rfl⟩ := timerElapses_eq_some_iff.mp hm
      exact refines_silent rfl rfl (broker_update session)
  | txTimeout x i | rxTimeout x i =>
      rw [perform] at h
      obtain ⟨entry, calls, session, hentry, hsession, rfl, rfl⟩ := timeout_eq_ok_iff.mp h
      exact refines_silent rfl rfl (broker_update session)
  | subscriptionsReordered order =>
      simp only [perform] at h
      split at h
      · rename_i hperm
        cases h
        refine refines_silent rfl rfl ?_
        have hsubscriptions : {s : Bytes × Bytes × QoS |
              (⟨s.2.1, s.2.2, s.1⟩ : SubscriptionContainer) ∈ order} =
            {s | (⟨s.2.1, s.2.2, s.1⟩ : SubscriptionContainer) ∈
              m.topicSubscriptions.subscriptions} := by
          ext s
          exact hperm.mem_iff
        rw [broker, broker, ← hsubscriptions]
        rfl
      · cases h
  | messagesReordered order =>
      simp only [perform] at h
      split at h
      · rename_i hperm
        cases h
        refine refines_silent rfl rfl ?_
        have hkept : {e | e ∈ (m.retainedMessages.reorder order hperm).contents} =
            {e | e ∈ m.retainedMessages.contents} := by
          ext e
          exact (hperm.map _).mem_iff
        rw [broker, broker, ← hkept]
      · cases h

/-! ## Repetitions -/

/-- A session sends a PUBLISH on a connection. -/
def SendsIn (effects : List Effect) (x : Bytes) (k : ConnectionId) (p : Publish) : Prop :=
  .call x k (.send (.publish p)) ∈ effects

/-- The publications in flight have been sent before, each on the connection of its session. -/
structure Backed (sent : Bytes → ConnectionId → Publish → Prop) (m : SessionManager) : Prop where
  wellFormed : ∀ x entry, m.sessions.lookup x = some entry →
    TxTable.WellFormed entry.session.txInFlightPublications
  inFlight : ∀ x entry, m.sessions.lookup x = some entry → ∀ i stored,
    entry.session.txInFlightPublications.publications.lookup i = some stored →
      ∃ p, sent x entry.connection p ∧ SameContent p stored.publish

variable {sent : Bytes → ConnectionId → Publish → Prop} {start : SessionManager}

/-- More may have been sent. -/
theorem Backed.mono {sent' : Bytes → ConnectionId → Publish → Prop} (h : Backed sent m)
    (hsub : ∀ x k p, sent x k p → sent' x k p) : Backed sent' m where
  wellFormed := h.wellFormed
  inFlight x entry hentry i stored hstored := by
    obtain ⟨p, hsent, hsame⟩ := h.inFlight x entry hentry i stored hstored
    exact ⟨p, hsub _ _ _ hsent, hsame⟩

/-- The sessions do not change. -/
theorem Backed.congr (h : Backed sent m) (hsessions : m'.sessions = m.sessions) :
    Backed sent m' where
  wellFormed := hsessions ▸ h.wellFormed
  inFlight := hsessions ▸ h.inFlight

/-- One session changes. -/
theorem Backed.update (h : Backed sent m) {session : MqttClientSession}
    (hentry : m.sessions.lookup x = some entry)
    (hwell : TxTable.WellFormed session.txInFlightPublications)
    (hinFlight : ∀ i stored, session.txInFlightPublications.publications.lookup i = some stored →
      ∃ p, sent x entry.connection p ∧ SameContent p stored.publish) :
    Backed sent (m.update x session) := by
  have hlookup : ∀ {y after}, (m.update x session).sessions.lookup y = some after →
      (y = x ∧ after = { entry with session := session }) ∨ m.sessions.lookup y = some after := by
    intro y after hafter
    by_cases hy : y = x
    · rw [hy, lookup_update_self hentry] at hafter
      cases hafter
      exact Or.inl ⟨hy, rfl⟩
    · rw [lookup_update_of_ne session hy] at hafter
      exact Or.inr hafter
  constructor
  · intro y after hafter
    rcases hlookup hafter with ⟨rfl, rfl⟩ | hbefore
    · exact hwell
    · exact h.wellFormed y after hbefore
  · intro y after hafter i stored hstored
    rcases hlookup hafter with ⟨rfl, rfl⟩ | hbefore
    · exact hinFlight i stored hstored
    · exact h.inFlight y after hbefore i stored hstored

/-- A session that answers its client repeats what it has in flight. -/
theorem Backed.advanced (h : Backed sent m) (hentry : m.sessions.lookup x = some entry)
    {session : MqttClientSession} (hadvances : entry.session.Advances calls session) :
    Backed sent (m.update x session) ∧
      ∀ p, .publish p ∈ sentPackets calls →
        ∃ first, sent x entry.connection first ∧ SameContent first p := by
  have hwell := h.wellFormed x entry hentry
  have hkept : ∀ {stored after : TxEntry}, stored.Keeps after →
      SameContent stored.publish after.publish := by
    intro stored after hkeeps
    rcases hkeeps.publish with hsame | ⟨-, hdup⟩
    · rw [hsame]
      exact SameContent.refl _
    · rw [hdup]
      exact TxTable.sameContent_setDup _ true
  cases hadvances with
  | rx hcalls t =>
      exact ⟨h.update hentry hwell (h.inFlight x entry hentry), fun p hp => absurd hp (hcalls p)⟩
  | tx e he hstep =>
      refine ⟨h.update hentry (hwell.change (TxTable.step_change hwell hstep)) ?_, ?_⟩
      · intro i after hafter
        obtain ⟨stored, hstored, hkeeps⟩ := TxTable.entry_of_step hwell he hstep hafter
        obtain ⟨first, hsent, hsame⟩ := h.inFlight x entry hentry i stored hstored
        exact ⟨first, hsent, hsame.trans (hkept hkeeps)⟩
      · intro p hp
        obtain ⟨stored, after, hstored, hkeeps, rfl⟩ := TxTable.resent_of_step hwell he hstep hp
        obtain ⟨first, hsent, hsame⟩ := h.inFlight x entry hentry _ stored hstored
        exact ⟨first, hsent, hsame.trans (hkept hkeeps)⟩

/-- A session that is handed a packet has in flight what it sends. -/
theorem Backed.handed (h : Backed sent m) (hentry : m.sessions.lookup x = some entry)
    {session : MqttClientSession} {isConnected : Bool}
    (hpublish : entry.session.publish isConnected p qos = .ok (calls, p', session))
    (hsent : ∀ out, .publish out ∈ sentPackets calls → sent x entry.connection out) :
    Backed sent (m.update x session) := by
  obtain ⟨t, ht, rfl⟩ := MqttClientSession.publish_eq_ok_iff.mp hpublish
  have hwell := h.wellFormed x entry hentry
  refine h.update hentry (hwell.change (TxTable.change_of_publish ht)) ?_
  intro i stored hstored
  rcases TxTable.entry_of_publish ht hstored with ⟨hbefore, -⟩ | ⟨hout, -⟩
  · exact h.inFlight x entry hentry i stored hbefore
  · exact ⟨_, hsent _ hout, SameContent.refl _⟩

/-- A session sends on its own connection. -/
theorem sendsIn_callsOf_iff {y : Bytes} {k : ConnectionId} :
    SendsIn (callsOf y entry calls) x k p ↔
      x = y ∧ k = entry.connection ∧ .publish p ∈ sentPackets calls := by
  rw [SendsIn, mem_callsOf_iff, sentPackets, List.mem_filterMap]
  constructor
  · rintro ⟨rfl, rfl, hmem⟩
    exact ⟨rfl, rfl, _, hmem, rfl⟩
  · rintro ⟨rfl, rfl, call, hmem, hsent⟩
    cases call with
    | send packet =>
        cases hsent
        exact ⟨rfl, rfl, hmem⟩
    | stop message => cases hsent

/-- Every act has in flight what it sends or what has been sent before. -/
theorem Backed.act (h : Backed sent m) (hact : Act connections start event m effects m')
    (hsent : event.hands = true → ∀ x k p, SendsIn effects x k p → sent x k p) :
    Backed sent m' ∧ (event.hands = false → ∀ x k p, SendsIn effects x k p →
      ∃ first, sent x k first ∧ SameContent first p) := by
  have hnothing : event.hands = false → ∀ x k p, SendsIn [] x k p →
      ∃ first, sent x k first ∧ SameContent first p :=
    fun _ _ _ _ hmem => absurd hmem List.not_mem_nil
  cases hact with
  | created connect k y he hy hfree =>
      refine ⟨⟨?_, ?_⟩, hnothing⟩
      · intro x entry hentry
        rw [Table.lookup_insert] at hentry
        split at hentry
        · cases hentry
          exact fun i stored hstored => by cases hstored
        · exact h.wellFormed x entry hentry
      · intro x entry hentry i stored hstored
        rw [Table.lookup_insert] at hentry
        split at hentry
        · cases hentry
          cases hstored
        · exact h.inFlight x entry hentry i stored hstored
  | removed y hends =>
      have hlookup : ∀ {x entry}, (m.remove y).sessions.lookup x = some entry →
          m.sessions.lookup x = some entry := by
        intro x entry hentry
        rw [sessions_remove, Table.lookup_erase] at hentry
        split at hentry
        · cases hentry
        · exact hentry
      exact ⟨⟨fun x entry hentry => h.wellFormed x entry (hlookup hentry),
        fun x entry hentry => h.inFlight x entry (hlookup hentry)⟩, hnothing⟩
  | subscribed | unsubscribed | subscriptionsReordered | messagesReordered | lowered | kept =>
      exact ⟨h.congr rfl, hnothing⟩
  | acknowledged y entry packet hy hentry hpacket =>
      refine ⟨h, fun _ x k p hmem => ?_⟩
      obtain ⟨-, -, hp⟩ := sendsIn_callsOf_iff.mp hmem
      simp only [sentPackets_send, sentPackets_nil, List.mem_singleton] at hp
      exact absurd hp.symm (hpacket p)
  | announced p =>
      refine ⟨h, fun _ x k p hmem => ?_⟩
      simp [SendsIn] at hmem
  | advanced y entry calls session hy hentry hadvances hquiet hstops =>
      obtain ⟨hafter, hrepeated⟩ := h.advanced hentry hadvances
      refine ⟨hafter, fun _ x k p hmem => ?_⟩
      obtain ⟨rfl, rfl, hp⟩ := sendsIn_callsOf_iff.mp hmem
      exact hrepeated p hp
  | handed y entry p q calls p' session hentry hp hpublish =>
      have hhands : event.hands = true := by cases hp <;> rfl
      refine ⟨h.handed hentry hpublish fun out hout => ?_, fun hfalse => ?_⟩
      · exact hsent hhands y _ out (sendsIn_callsOf_iff.mpr ⟨rfl, rfl, hout⟩)
      · rw [hhands] at hfalse
        cases hfalse

/-- What is published in an event that hands nothing to the sessions has been sent before. -/
theorem backed_of_perform (h : Backed sent m)
    (hperform : m.perform connections event = some (.ok (effects, m'))) :
    Backed (fun x k p => sent x k p ∨ event.hands = true ∧ SendsIn effects x k p) m' ∧
      (event.hands = false → ∀ x k p, SendsIn effects x k p →
        ∃ first, sent x k first ∧ SameContent first p) := by
  refine (trace_of_perform hperform).invariant (fun done t =>
    Backed (fun x k p => sent x k p ∨ event.hands = true ∧ SendsIn done x k p) t ∧
      (event.hands = false → ∀ x k p, SendsIn done x k p →
        ∃ first, sent x k first ∧ SameContent first p)) [] ?_ ⟨?_, ?_⟩
  · rintro done t more t' ⟨ht, hdone⟩ hact
    have hmore : Backed (fun x k p =>
        sent x k p ∨ event.hands = true ∧ SendsIn (done ++ more) x k p) t :=
      ht.mono fun x k p hsent =>
        hsent.imp_right (And.imp_right fun hmem => List.mem_append_left _ hmem)
    obtain ⟨hafter, hrepeated⟩ := hmore.act hact fun hhands x k p hmem =>
      Or.inr ⟨hhands, List.mem_append_right _ hmem⟩
    refine ⟨hafter, fun hhands x k p hmem => ?_⟩
    rcases List.mem_append.mp hmem with hmem | hmem
    · exact hdone hhands x k p hmem
    · obtain ⟨first, hsent | ⟨htrue, -⟩, hsame⟩ := hrepeated hhands x k p hmem
      · exact ⟨first, hsent, hsame⟩
      · rw [hhands] at htrue
        cases htrue
  · exact h.mono fun _ _ _ hsent => Or.inl hsent
  · exact fun _ _ _ _ hmem => absurd hmem List.not_mem_nil

end SessionManager

end Dispatch
end WallyIo
