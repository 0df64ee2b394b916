import WallyIo.Dispatch.Provenance
import WallyIo.Dispatch.RxLifetimes
import WallyIo.Dispatch.SessionTables
import WallyIo.Dispatch.TxLifetimes

/-!
# Requests and replies

Every packet that a session sends, other than a PUBLISH, answers a packet that its client has
sent, or repeats such an answer.  A packet is answered at once or never, and it is answered by
one packet.

Main results:

- Definition {lit}`AnswerTo`: which packets answer which.
- Theorem {lit}`SessionManager.replied_of_perform`: a packet is answered exactly if the session
  of its sender owes it an answer.
- Theorem {lit}`SessionManager.repeated_of_perform`: without a packet, nothing but a PUBREL or a
  PUBREC is sent again.
-/

namespace WallyIo
namespace Dispatch

open Protocol Library

/-! ## Requests and answers -/

/-- Which packets answer which. -/
inductive AnswerTo : MqttPacket → MqttPacket → Prop
  | connack (connect : Connect) (returnCode : ConnectReturnCode) :
      AnswerTo (.connect connect) (.connack ⟨false, returnCode⟩)
  | pingresp : AnswerTo .pingreq .pingresp
  | suback (subscribe : Subscribe) : AnswerTo (.subscribe subscribe) (.suback subscribe.succeed)
  | unsuback (unsubscribe : Unsubscribe) :
      AnswerTo (.unsubscribe unsubscribe) (.unsuback ⟨unsubscribe.packetIdentifier⟩)
  | puback (p : Publish) (hqos : p.qos = .atLeastOnce) :
      AnswerTo (.publish p) (.publishAck (.puback p.packetIdentifier))
  | pubrec (p : Publish) (hqos : p.qos = .exactlyOnce) :
      AnswerTo (.publish p) (.publishAck (.pubrec p.packetIdentifier))
  | pubrel (i : UInt16) : AnswerTo (.publishAck (.pubrec i)) (.publishAck (.pubrel i))
  | pubcomp (i : UInt16) : AnswerTo (.publishAck (.pubrel i)) (.publishAck (.pubcomp i))

/-- What is sent in reply to a packet: its answer if one is owed, and else nothing. -/
inductive Replied (request : MqttPacket) : Bool → List MqttPacket → Prop
  | answer (answer : MqttPacket) (h : AnswerTo request answer) : Replied request true [answer]
  | nothing : Replied request false []

/-- Whether a packet is sent in reply to another one. -/
def isReply (packet : MqttPacket) : Bool := packet.type != .publish

/-- What a list of calls sends in reply. -/
def repliesOf (calls : List SenderCall) : List MqttPacket := (sentPackets calls).filter isReply

@[simp]
theorem repliesOf_nil : repliesOf [] = [] := rfl

@[simp]
theorem repliesOf_append (xs ys : List SenderCall) :
    repliesOf (xs ++ ys) = repliesOf xs ++ repliesOf ys := by
  simp [repliesOf]

@[simp]
theorem repliesOf_stop (message : String) (calls : List SenderCall) :
    repliesOf (.stop message :: calls) = repliesOf calls := rfl

/-- A packet is a reply unless it is a PUBLISH. -/
theorem repliesOf_send (packet : MqttPacket) (calls : List SenderCall) :
    repliesOf (.send packet :: calls) =
      if isReply packet then packet :: repliesOf calls else repliesOf calls := by
  rw [repliesOf, sentPackets_send, List.filter_cons]
  rfl

/-- Calls that publish do not reply. -/
theorem repliesOf_eq_nil {calls : List SenderCall}
    (h : ∀ call ∈ calls, ∃ p, call = .send (.publish p)) : repliesOf calls = [] := by
  rw [repliesOf, List.filter_eq_nil_iff]
  intro packet hmem
  obtain ⟨call, hcall, hsent⟩ := List.mem_filterMap.mp hmem
  obtain ⟨p, rfl⟩ := h call hcall
  cases hsent
  exact Bool.false_ne_true

/-! ## What a session replies -/

namespace MqttClientSession

/-- Whether a session owes its client an answer to a packet.  A copy of a publication that is
not complete is not answered, and a client that goes on with a publication that does not exist
is disconnected. -/
def owes (s : MqttClientSession) : MqttPacket → Bool
  | .subscribe _ => true
  | .unsubscribe _ => true
  | .publish p => (p.qos == .atLeastOnce || p.qos == .exactlyOnce) &&
      !s.rxInFlightPublications.publications.contains p.packetIdentifier
  | .publishAck (.pubrec i) => s.txInFlightPublications.publications.contains i
  | .publishAck (.pubrel i) => s.rxInFlightPublications.publications.contains i
  | _ => false

variable {s s' : MqttClientSession} {calls : List SenderCall} {connected : Bool}

/-- A PUBLISH is answered unless it is a copy. -/
theorem replied_clientSentPublish {b : Bool} {p : Publish}
    (h : s.clientSentPublish connected p = .ok (b, calls, s')) :
    Replied (.publish p) (connected && s.owes (.publish p)) (repliesOf calls) := by
  obtain ⟨t, ht, -⟩ := clientSentPublish_eq_ok_iff.mp h
  cases hp : s.rxInFlightPublications.publications.lookup p.packetIdentifier with
  | some stored =>
      have howes : s.owes (.publish p) = false := by simp [owes, Table.contains, hp]
      rw [RxInFlightPublications.clientSentPublish_duplicate hp] at ht
      cases ht
      rw [howes, Bool.and_false]
      exact .nothing
  | none =>
      have howes : s.owes (.publish p) = (p.qos == .atLeastOnce || p.qos == .exactlyOnce) := by
        simp [owes, Table.contains, hp]
      rw [RxInFlightPublications.clientSentPublish_of_free connected hp] at ht
      cases ht
      rw [howes]
      cases connected with
      | false => exact .nothing
      | true =>
          unfold RxInFlightPublications.firstAnswer
          cases hqos : p.qos with
          | atMostOnce | reserved => exact .nothing
          | atLeastOnce => exact .answer _ (.puback p hqos)
          | exactlyOnce => exact .answer _ (.pubrec p hqos)

/-- A publication in flight answers a PUBREC, and nothing else. -/
theorem replied_of_entry {entry : TxEntry} {ack : PublishAck} {reaction : Reaction TxEntry}
    (hwaits : entry.waiting = true) (hid : ack.packetIdentifier = entry.publish.packetIdentifier)
    (h : entry.responseReceived ack = .ok reaction) :
    Replied (.publishAck ack) (ack.type == .pubrec) (repliesOf reaction.calls) := by
  cases entry with
  | qos1 p =>
      rw [TxEntry.responseReceived_qos1 hwaits hid] at h
      split at h
      · rename_i htype
        cases h
        rw [htype]
        exact .nothing
      · cases h
  | qos2 p =>
      obtain ⟨r, hr, rfl⟩ := map_eq_ok_iff.mp h
      have hpubrel : ack.type = .pubrec →
          Replied (.publishAck ack) (ack.type == .pubrec) (repliesOf [.send p.pubrel]) := by
        intro htype
        cases ack with
        | pubrec i =>
            have hi : p.publish.packetIdentifier = i := hid.symm
            rw [Qos2TxPublication.pubrel, hi]
            exact .answer _ (.pubrel i)
        | puback i | pubrel i | pubcomp i => cases htype
      have hnothing : ack.type ≠ .pubrec →
          Replied (.publishAck ack) (ack.type == .pubrec) [] := by
        intro htype
        rw [beq_eq_false_iff_ne.mpr htype]
        exact .nothing
      rcases TxEntry.waiting_qos2_iff.mp hwaits with hrec | hcomp
      · rw [Qos2TxPublication.responseReceived_of_waitingForRec hrec] at hr
        split at hr
        · rename_i htype
          cases hr
          exact hnothing htype
        · rename_i htype
          split at hr
          · cases hr
            exact hpubrel (not_not.mp htype)
          · cases hr
      · rw [Qos2TxPublication.responseReceived_of_waitingForComp hcomp] at hr
        split at hr
        · rename_i htype
          cases hr
          exact hpubrel htype
        · rename_i htype
          split at hr
          · cases hr
            exact hnothing htype
          · cases hr

/-- A PUBREC is answered by a PUBREL as long as its publication is in flight.  PUBACK and
PUBCOMP are not answered. -/
theorem replied_responseReceived {ack : PublishAck}
    (hwell : TxTable.WellFormed s.txInFlightPublications)
    (h : s.responseReceived connected ack = .ok (calls, s')) :
    Replied (.publishAck ack) (connected && s.owes (.publishAck ack)) (repliesOf calls) := by
  obtain ⟨t, ht, -⟩ := responseReceived_eq_ok_iff.mp h
  have hack : isResponse ack = true := (assert_bind_eq_ok_iff.mp ht).1
  have howes : s.owes (.publishAck ack) = (ack.type == .pubrec &&
      s.txInFlightPublications.publications.contains ack.packetIdentifier) := by
    cases ack with
    | puback i | pubrec i | pubcomp i => rfl
    | pubrel i => cases hack
  rw [howes]
  cases connected with
  | false =>
      rw [TxTable.responseReceived_disconnected hack] at ht
      cases ht
      exact .nothing
  | true =>
      rw [Bool.true_and]
      cases hentry : s.txInFlightPublications.publications.lookup ack.packetIdentifier with
      | none =>
          rw [TxInFlightPublications.responseReceived_unknown hack hentry] at ht
          cases ht
          rw [(Table.contains_eq_false_iff _ _).mpr hentry, Bool.and_false]
          exact .nothing
      | some entry =>
          rw [TxTable.responseReceived_known hack hentry] at ht
          obtain ⟨reaction, hreaction, hsettle⟩ := bind_eq_ok_iff.mp ht
          obtain ⟨hwaits, hid⟩ := hwell _ entry hentry
          rw [TxInFlightPublications.calls_of_settle hsettle, Table.contains, hentry,
            Option.isSome_some, Bool.and_true]
          exact replied_of_entry hwaits hid.symm hreaction

/-- A PUBREL is answered by a PUBCOMP as long as its publication is stored. -/
theorem replied_clientReleasedPublish {i : UInt16}
    (hwell : RxTable.WellFormed s.rxInFlightPublications)
    (h : s.clientReleasedPublish connected i = .ok (calls, s')) :
    Replied (.publishAck (.pubrel i)) (connected && s.owes (.publishAck (.pubrel i)))
      (repliesOf calls) := by
  obtain ⟨t, ht, -⟩ := clientReleasedPublish_eq_ok_iff.mp h
  cases connected with
  | false =>
      cases ht
      exact .nothing
  | true =>
      rw [Bool.true_and, owes]
      cases hp : s.rxInFlightPublications.publications.lookup i with
      | none =>
          rw [RxInFlightPublications.clientSentPubrel_unknown hp] at ht
          cases ht
          rw [(Table.contains_eq_false_iff _ _).mpr hp]
          exact .nothing
      | some p =>
          obtain ⟨hstate, hid⟩ := hwell i p hp
          rw [RxInFlightPublications.clientSentPubrel_known hp hstate hid] at ht
          cases ht
          rw [Table.contains, hp]
          exact .answer _ (.pubcomp i)

/-- A session that is handed a packet does not reply. -/
theorem repliesOf_publish {p p' : Publish} {qos : QoS}
    (h : s.publish connected p qos = .ok (calls, p', s')) : repliesOf calls = [] :=
  repliesOf_eq_nil fun _ hcall => SessionManager.publish_of_handed h hcall

/-- A handler of a timer repeats a PUBREL, if anything that is a reply. -/
theorem repliesOf_txTimeout {i : UInt16} (hwell : TxTable.WellFormed s.txInFlightPublications)
    (h : s.txTimeout i = some (.ok (calls, s'))) :
    repliesOf calls = [] ∨ repliesOf calls = [.publishAck (.pubrel i)] := by
  obtain ⟨t, ht, -⟩ := txTimeout_eq_ok_iff.mp h
  obtain ⟨entry, timer, hentry, -, ⟨-, rfl, -⟩ | ⟨-, rfl, -⟩⟩ :=
    (TxTable.timeout_eq_some_iff hwell).mp ht
  · cases entry with
    | qos1 p => exact Or.inl rfl
    | qos2 p =>
        have hi : p.publish.packetIdentifier = i := (hwell i _ hentry).2
        rw [TxEntry.resent]
        split
        · exact Or.inl rfl
        · rw [Qos2TxPublication.pubrel, hi]
          exact Or.inr rfl
  · exact Or.inl rfl

/-- A handler of a timer on the receiving side repeats a PUBREC, if anything. -/
theorem repliesOf_rxTimeout {i : UInt16} (hwell : RxTable.WellFormed s.rxInFlightPublications)
    (h : s.rxTimeout i = some (.ok (calls, s'))) :
    repliesOf calls = [] ∨ repliesOf calls = [.publishAck (.pubrec i)] := by
  obtain ⟨t, ht, -⟩ := rxTimeout_eq_ok_iff.mp h
  obtain ⟨p, timer, hp, -, ⟨-, rfl, -⟩ | ⟨-, rfl, -⟩⟩ :=
    (RxTable.timeout_eq_some_iff hwell).mp ht
  · rw [RxPublication.pubrec, (hwell i p hp).2]
    exact Or.inr rfl
  · exact Or.inl rfl

end MqttClientSession

/-! ## What the session manager replies -/

/-- A reply on the connection where an answer is owed, if there is one. -/
inductive RepliedOn (request : MqttPacket) :
    Option ConnectionId → List (ConnectionId × MqttPacket) → Prop
  | answer (k : ConnectionId) (answer : MqttPacket) (h : AnswerTo request answer) :
      RepliedOn request (some k) [(k, answer)]
  | nothing : RepliedOn request none []

/-- A session replies on its connection. -/
theorem Replied.on {request : MqttPacket} {owed : Bool} {answers : List MqttPacket}
    (h : Replied request owed answers) (k : ConnectionId) :
    RepliedOn request (if owed then some k else none) (answers.map fun answer => (k, answer)) := by
  cases h with
  | answer answer hanswer => exact .answer k answer hanswer
  | nothing => exact .nothing

/-- The RETAIN flag does not matter. -/
theorem RepliedOn.of_setRetain {p : Publish} {retain : Bool} {owed : Option ConnectionId}
    {answers : List (ConnectionId × MqttPacket)}
    (h : RepliedOn (.publish (p.setRetain retain)) owed answers) :
    RepliedOn (.publish p) owed answers := by
  cases h with
  | nothing => exact .nothing
  | answer k answer hanswer =>
      refine .answer k answer ?_
      cases hanswer with
      | puback _ hqos => exact .puback p ((Publish.qos_setRetain p retain).symm.trans hqos)
      | pubrec _ hqos => exact .pubrec p ((Publish.qos_setRetain p retain).symm.trans hqos)

namespace SessionManager

/-- What an effect sends in reply, and on which connection. -/
def reply : Effect → Option (ConnectionId × MqttPacket)
  | .call _ k (.send packet) => if isReply packet then some (k, packet) else none
  | .call _ _ (.stop _) => none
  | .publish _ => none

/-- What some effects send in reply, and on which connections. -/
def replies (effects : List Effect) : List (ConnectionId × MqttPacket) := effects.filterMap reply

/-- The packet that has been received in an event. -/
def Event.request : Event → Option MqttPacket
  | .clientSubscribed _ subscribe => some (.subscribe subscribe)
  | .clientUnsubscribed _ unsubscribe => some (.unsubscribe unsubscribe)
  | .clientPublished _ p => some (.publish p)
  | .clientAcked _ ack => some (.publishAck ack)
  | _ => none

/-- On which connection a client is owed an answer to a packet. -/
def owesOn (m : SessionManager) (connections : Connections) (x : Bytes) (request : MqttPacket) :
    Option ConnectionId :=
  match m.sessions.lookup x with
  | some entry =>
      if connected connections entry && entry.session.owes request then some entry.connection
      else none
  | none => none

/-- The publications of all sessions wait under their own identifiers. -/
structure TablesWellFormed (m : SessionManager) : Prop where
  tx : ∀ x entry, m.sessions.lookup x = some entry →
    TxTable.WellFormed entry.session.txInFlightPublications
  rx : ∀ x entry, m.sessions.lookup x = some entry →
    RxTable.WellFormed entry.session.rxInFlightPublications

variable {connections : Connections} {m m' : SessionManager} {event : Event}
  {effects : List Effect} {x : Bytes} {entry : SessionEntry} {calls : List SenderCall}
  {request : MqttPacket}

@[simp]
theorem replies_nil : replies [] = [] := rfl

@[simp]
theorem replies_append (xs ys : List Effect) : replies (xs ++ ys) = replies xs ++ replies ys :=
  List.filterMap_append

@[simp]
theorem replies_publish (p : Publish) (xs : List Effect) :
    replies (.publish p :: xs) = replies xs := rfl

/-- A session replies on its connection. -/
theorem replies_callsOf (x : Bytes) (entry : SessionEntry) (calls : List SenderCall) :
    replies (callsOf x entry calls) =
      (repliesOf calls).map fun answer => (entry.connection, answer) := by
  induction calls with
  | nil => rfl
  | cons call calls ih =>
      rw [replies, callsOf] at ih
      rw [replies, callsOf, List.map_cons, List.filterMap_cons, ih]
      cases call with
      | stop message => rfl
      | send packet =>
          rw [reply, repliesOf_send]
          cases isReply packet <;> rfl

theorem owesOn_of_lookup (hentry : m.sessions.lookup x = some entry) :
    m.owesOn connections x request =
      if connected connections entry && entry.session.owes request then some entry.connection
      else none := by
  rw [owesOn, hentry]

theorem owesOn_of_none (hnone : m.sessions.lookup x = none) :
    m.owesOn connections x request = none := by
  rw [owesOn, hnone]

/-- What the session of a client replies for the session manager. -/
theorem repliedOn_of_replied (hentry : m.sessions.lookup x = some entry)
    (h : Replied request (connected connections entry && entry.session.owes request)
      (repliesOf calls)) :
    RepliedOn request (m.owesOn connections x request) (replies (callsOf x entry calls)) := by
  rw [owesOn_of_lookup hentry, replies_callsOf]
  exact h.on entry.connection

/-- Publishing a packet replies to nobody. -/
theorem replies_of_publish {p p' : Publish}
    (h : m.publish connections p = .ok (effects, p', m')) : replies effects = [] := by
  obtain ⟨calls, hloop, rfl⟩ := publish_eq_ok_iff_publishTo.mp h
  rw [replies_publish]
  refine publishTo_invariant (fun pre _ _ => replies pre = []) [] ?_ rfl hloop
  intro pre p m y q entry calls p' session hpre hmem hentry hpublish
  rw [replies_append, hpre, replies_callsOf,
    MqttClientSession.repliesOf_publish hpublish, List.map_nil, List.append_nil]

/-- Handing out retained messages replies to nobody. -/
theorem repliesOf_publishRetained {isConnected : Bool} {messages : List (Publish × QoS)}
    {r r' : RetainedMessages} {s s' : MqttClientSession}
    (h : publishRetained isConnected messages r s = .ok (calls, r', s')) :
    repliesOf calls = [] := by
  induction messages generalizing r s calls with
  | nil =>
      cases h
      rfl
  | cons message rest ih =>
      obtain ⟨-, hpublish⟩ := assert_bind_eq_ok_iff.mp h
      obtain ⟨⟨calls₁, p, s₁⟩, hsession, hloop⟩ := bind_eq_ok_iff.mp hpublish
      obtain ⟨⟨calls₂, r₂, s₂⟩, hrest, hresult⟩ := bind_eq_ok_iff.mp hloop
      cases hresult
      rw [repliesOf_append, MqttClientSession.repliesOf_publish hsession, ih hrest,
        List.append_nil]

/-- A session sends a SUBACK or UNSUBACK unless its connection is gone. -/
theorem replied_send {answer : MqttPacket} (hentry : m.sessions.lookup x = some entry)
    (howes : entry.session.owes request = true) (hreply : isReply answer = true)
    (hanswer : AnswerTo request answer) (m'' : SessionManager) :
    RepliedOn request (m.owesOn connections x request)
      (replies (m''.send connections x entry answer).1) := by
  rw [owesOn_of_lookup hentry, howes, Bool.and_true, send]
  cases connected connections entry with
  | true =>
      rw [if_pos rfl, if_pos rfl, replies_callsOf, repliesOf_send, if_pos hreply]
      exact .answer _ _ hanswer
  | false =>
      rw [if_neg Bool.false_ne_true, if_neg Bool.false_ne_true]
      exact .nothing

/-- A SUBSCRIBE is answered before the retained messages are sent. -/
theorem replied_clientSubscribed {subscribe : Subscribe}
    (h : m.clientSubscribed connections x subscribe = .ok (effects, m')) :
    RepliedOn (.subscribe subscribe) (m.owesOn connections x (.subscribe subscribe))
      (replies effects) := by
  simp only [clientSubscribed] at h
  split at h
  · rename_i entry hentry
    obtain ⟨⟨calls, r, session⟩, hloop, hresult⟩ := bind_eq_ok_iff.mp h
    cases hresult
    rw [replies_append, replies_callsOf, repliesOf_publishRetained hloop, List.map_nil,
      List.append_nil]
    exact replied_send hentry rfl rfl (.suback subscribe) _
  · rename_i hnone
    cases h
    rw [owesOn_of_none hnone]
    exact .nothing

/-- An UNSUBSCRIBE is answered. -/
theorem replied_clientUnsubscribed (m : SessionManager) (connections : Connections) (x : Bytes)
    (unsubscribe : Unsubscribe) :
    RepliedOn (.unsubscribe unsubscribe) (m.owesOn connections x (.unsubscribe unsubscribe))
      (replies (m.clientUnsubscribed connections x unsubscribe).1) := by
  simp only [clientUnsubscribed]
  split
  · rename_i entry hentry
    exact replied_send hentry rfl rfl (.unsuback unsubscribe) _
  · rename_i hnone
    rw [owesOn_of_none hnone]
    exact .nothing

/-- A PUBLISH is answered before it is published. -/
theorem replied_clientSentPublish {p p' : Publish} (hentry : m.sessions.lookup x = some entry)
    (h : m.clientSentPublish connections x entry p = .ok (effects, p', m')) :
    RepliedOn (.publish p) (m.owesOn connections x (.publish p)) (replies effects) := by
  obtain ⟨⟨b, calls, session⟩, hsession, hrest⟩ := bind_eq_ok_iff.mp h
  have hreplied := repliedOn_of_replied hentry
    (MqttClientSession.replied_clientSentPublish hsession)
  cases b with
  | true =>
      obtain ⟨⟨more, published, m''⟩, hpublish, hresult⟩ := bind_eq_ok_iff.mp hrest
      cases hresult
      rw [replies_append, replies_of_publish hpublish, List.append_nil]
      exact hreplied
  | false =>
      cases hrest
      exact hreplied

theorem replied_clientPublished {p : Publish}
    (h : m.clientPublished connections x p = .ok (effects, m')) :
    RepliedOn (.publish p) (m.owesOn connections x (.publish p)) (replies effects) := by
  simp only [clientPublished] at h
  split at h
  · rename_i entry hentry
    split at h
    · obtain ⟨⟨calls, p', m''⟩, hsent, hrest⟩ := bind_eq_ok_iff.mp h
      obtain ⟨r, -, hresult⟩ := bind_eq_ok_iff.mp hrest
      cases hresult
      have howes : m.owesOn connections x (.publish (p.setRetain false)) =
          m.owesOn connections x (.publish p) := by
        rw [owesOn_of_lookup hentry, owesOn_of_lookup hentry, MqttClientSession.owes,
          MqttClientSession.owes, Publish.qos_setRetain, Publish.packetIdentifier_setRetain]
      have hreplied := replied_clientSentPublish hentry hsent
      rw [howes] at hreplied
      exact hreplied.of_setRetain
    · obtain ⟨⟨calls, p', m''⟩, hsent, hresult⟩ := bind_eq_ok_iff.mp h
      cases hresult
      exact replied_clientSentPublish hentry hsent
  · rename_i hnone
    cases h
    rw [owesOn_of_none hnone]
    exact .nothing

/-- An acknowledgement is answered by the session of its client. -/
theorem replied_onSession
    {answer : Bool → MqttClientSession → Except Fault (List SenderCall × MqttClientSession)}
    (hanswer : ∀ entry calls session, m.sessions.lookup x = some entry →
      answer (connected connections entry) entry.session = .ok (calls, session) →
        Replied request (connected connections entry && entry.session.owes request)
          (repliesOf calls))
    (h : m.onSession connections x answer = .ok (effects, m')) :
    RepliedOn request (m.owesOn connections x request) (replies effects) := by
  rcases onSession_eq_ok_iff.mp h with
    ⟨entry, calls, session, hentry, hsession, rfl, rfl⟩ | ⟨hnone, rfl, rfl⟩
  · exact repliedOn_of_replied hentry (hanswer entry calls session hentry hsession)
  · rw [owesOn_of_none hnone]
    exact .nothing

/-- A packet is answered exactly if the session of its sender owes it an answer, and nobody else
is sent a reply. -/
theorem replied_of_perform (hwell : m.TablesWellFormed) (hclient : event.client = some x)
    (hrequest : event.request = some request)
    (h : m.perform connections event = some (.ok (effects, m'))) :
    RepliedOn request (m.owesOn connections x request) (replies effects) := by
  cases event with
  | clientSubscribed y subscribe =>
      cases hclient
      cases hrequest
      exact replied_clientSubscribed (Option.some.inj h)
  | clientUnsubscribed y unsubscribe =>
      cases hclient
      cases hrequest
      have hperform := Except.ok.inj (Option.some.inj h)
      have hreplied := replied_clientUnsubscribed m connections x unsubscribe
      rw [hperform] at hreplied
      exact hreplied
  | clientPublished y p =>
      cases hclient
      cases hrequest
      exact replied_clientPublished (Option.some.inj h)
  | clientAcked y ack =>
      cases hclient
      cases hrequest
      rw [perform, Option.some.injEq] at h
      cases ack with
      | puback i | pubrec i | pubcomp i =>
          simp only [clientAcked, clientAckedPublish, clientReceivedPublish,
            clientCompletedPublish] at h
          refine replied_onSession ?_ h
          intro entry calls session hentry hsession
          exact MqttClientSession.replied_responseReceived (hwell.tx _ entry hentry) hsession
      | pubrel i =>
          simp only [clientAcked, clientReleasedPublish] at h
          refine replied_onSession ?_ h
          intro entry calls session hentry hsession
          exact MqttClientSession.replied_clientReleasedPublish (hwell.rx _ entry hentry) hsession
  | clientConnected | clientDisconnected | clientDisconnectedUngracefully | destroy
  | txTimerElapses | txTimeout | rxTimerElapses | rxTimeout | subscriptionsReordered
  | messagesReordered => cases hrequest

/-- What the timer of a publication repeats. -/
inductive Repeats : Event → MqttPacket → Prop
  | pubrel (x : Bytes) (i : UInt16) : Repeats (.txTimeout x i) (.publishAck (.pubrel i))
  | pubrec (x : Bytes) (i : UInt16) : Repeats (.rxTimeout x i) (.publishAck (.pubrec i))

/-- A handler of a timer replies on the connection of its session. -/
theorem repeated_timeout {packet : MqttPacket}
    {handler : MqttClientSession →
      Option (Except Fault (List SenderCall × MqttClientSession))}
    (hhandler : ∀ entry calls session, m.sessions.lookup x = some entry →
      handler entry.session = some (.ok (calls, session)) →
        repliesOf calls = [] ∨ repliesOf calls = [packet])
    (h : m.timeout x handler = some (.ok (effects, m'))) :
    replies effects = [] ∨ ∃ entry, m.sessions.lookup x = some entry ∧
      replies effects = [(entry.connection, packet)] := by
  obtain ⟨entry, calls, session, hentry, hsession, rfl, -⟩ := timeout_eq_ok_iff.mp h
  rw [replies_callsOf]
  rcases hhandler entry calls session hentry hsession with hnone | hone
  · rw [hnone]
    exact Or.inl rfl
  · rw [hone]
    exact Or.inr ⟨entry, hentry, rfl⟩

/-- Where no packet has been received, nothing but a PUBREL or a PUBREC is sent again. -/
theorem repeated_of_perform (hwell : m.TablesWellFormed) (hrequest : event.request = none)
    (h : m.perform connections event = some (.ok (effects, m'))) :
    replies effects = [] ∨ ∃ x entry packet, event.client = some x ∧
      m.sessions.lookup x = some entry ∧ Repeats event packet ∧
        replies effects = [(entry.connection, packet)] := by
  cases event with
  | clientConnected connect connection =>
      obtain ⟨m'', -, hresult⟩ := map_eq_ok_iff.mp (Option.some.inj h)
      cases hresult
      exact Or.inl rfl
  | clientDisconnected y reason =>
      cases h
      exact Or.inl rfl
  | clientSubscribed | clientUnsubscribed | clientPublished | clientAcked => cases hrequest
  | clientDisconnectedUngracefully y reason =>
      left
      rcases clientDisconnectedUngracefully_eq_ok_iff.mp (Option.some.inj h) with
        ⟨entry, lwt, p, -, -, hpublish⟩ | ⟨entry, -, -, rfl, -⟩ | ⟨-, rfl, -⟩
      · exact replies_of_publish hpublish
      · rfl
      · rfl
  | destroy y =>
      cases h
      exact Or.inl rfl
  | txTimerElapses y i | rxTimerElapses y i =>
      obtain ⟨m'', -, hresult⟩ := Option.map_eq_some_iff.mp h
      cases hresult
      exact Or.inl rfl
  | txTimeout y i =>
      have htimeout : m.timeout y (·.txTimeout i) = some (.ok (effects, m')) := h
      rcases repeated_timeout (fun entry _ _ hentry hsession =>
        MqttClientSession.repliesOf_txTimeout (hwell.tx y entry hentry) hsession) htimeout with
        hnone | ⟨entry, hentry, hreplies⟩
      · exact Or.inl hnone
      · exact Or.inr ⟨y, entry, _, rfl, hentry, .pubrel y i, hreplies⟩
  | rxTimeout y i =>
      have htimeout : m.timeout y (·.rxTimeout i) = some (.ok (effects, m')) := h
      rcases repeated_timeout (fun entry _ _ hentry hsession =>
        MqttClientSession.repliesOf_rxTimeout (hwell.rx y entry hentry) hsession) htimeout with
        hnone | ⟨entry, hentry, hreplies⟩
      · exact Or.inl hnone
      · exact Or.inr ⟨y, entry, _, rfl, hentry, .pubrec y i, hreplies⟩
  | subscriptionsReordered order | messagesReordered order =>
      simp only [perform] at h
      split at h
      · cases h
        exact Or.inl rfl
      · cases h

/-- No session sends a CONNACK. -/
theorem not_connack_of_perform (hwell : m.TablesWellFormed)
    (h : m.perform connections event = some (.ok (effects, m'))) {k : ConnectionId}
    {packet : MqttPacket} (hmem : .call x k (.send packet) ∈ effects) :
    packet.type ≠ .connack := by
  intro htype
  have hreply : (k, packet) ∈ replies effects := by
    refine List.mem_filterMap.mpr ⟨_, hmem, if_pos ?_⟩
    rw [isReply, htype]
    rfl
  have hconnack : ∀ {request : MqttPacket}, event.request = some request →
      ¬ AnswerTo request packet := by
    intro request hrequest hanswer
    cases hanswer with
    | connack connect returnCode => cases event <;> cases hrequest
    | pingresp | suback | unsuback | puback | pubrec | pubrel | pubcomp => cases htype
  cases hrequest : event.request with
  | none =>
      rcases repeated_of_perform hwell hrequest h with
        hnone | ⟨y, entry, packet', -, -, hrepeats, hreplies⟩
      · rw [hnone] at hreply
        cases hreply
      · rw [hreplies] at hreply
        cases List.mem_singleton.mp hreply
        cases hrepeats <;> cases htype
  | some request =>
      have hclient : ∃ y, event.client = some y := by
        cases event with
        | clientSubscribed | clientUnsubscribed | clientPublished | clientAcked => exact ⟨_, rfl⟩
        | clientConnected | clientDisconnected | clientDisconnectedUngracefully | destroy
        | txTimerElapses | txTimeout | rxTimerElapses | rxTimeout | subscriptionsReordered
        | messagesReordered => cases hrequest
      obtain ⟨y, hy⟩ := hclient
      have hreplied := replied_of_perform hwell hy hrequest h
      generalize replies effects = answers at hreply hreplied
      generalize m.owesOn connections y request = owed at hreplied
      cases hreplied with
      | answer j answer hanswer =>
          cases List.mem_singleton.mp hreply
          exact hconnack hrequest hanswer
      | nothing => cases hreply

/-- In every state of the session manager that is reached the publications wait. -/
theorem tablesWellFormed_of_run {maxRetries : Nat} {steps : List ManagerStep}
    (h : machine.Run (some (create maxRetries)) steps (some m)) : m.TablesWellFormed where
  tx x entry hentry := ((stems_of_run h rfl).sessions x entry hentry).wellFormed
  rx x entry hentry := by
    obtain ⟨-, hreached⟩ := reached_of_run h m rfl
    obtain ⟨tableSteps, hrun⟩ := hreached x _ (rxTable_of_lookup hentry)
    obtain ⟨t, ht, hwell⟩ := RxTable.exists_wellFormed_of_run hrun
    cases ht
    exact hwell

end SessionManager

end Dispatch
end WallyIo
