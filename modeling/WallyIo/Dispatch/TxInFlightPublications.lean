import WallyIo.Dispatch.TxPublication
import WallyIo.Library.Table

/-!
# The outgoing publications of a session

A session keeps its unfinished outgoing publications in a table under their packet
identifiers.  The table assigns identifiers, starts publications, routes the
client's responses to them and forgets those that are finished.

Main results:

- Theorem {lit}`publish_numbered`: what publishing under a packet identifier does.
- Theorem {lit}`publish_exactlyOnce`: publishing under a free identifier sends the
  packet and waits for a PUBREC.
- Theorem {lit}`responseReceived_unknown`: a response under an identifier that is not
  in use stops the connection.
- Theorem {lit}`responseReceived_qos2` and {lit}`timeout_qos2`: events of a
  publication change its entry only.
-/

namespace WallyIo
namespace Dispatch

open Protocol Library

/-- An entry of the table. -/
inductive TxEntry
  | qos1 (publication : Qos1TxPublication)
  | qos2 (publication : Qos2TxPublication)
deriving DecidableEq, Repr

namespace TxEntry

/-- The client responded. -/
def responseReceived (ack : PublishAck) : TxEntry → Except Fault (Reaction TxEntry)
  | .qos1 p => (p.responseReceived ack).map (Reaction.map .qos1)
  | .qos2 p => (p.responseReceived ack).map (Reaction.map .qos2)

/-- The client did not answer in time. -/
def ackTimeoutExpired : TxEntry → Except Fault (Reaction TxEntry)
  | .qos1 p => p.ackTimeoutExpired.map (Reaction.map .qos1)
  | .qos2 p => p.ackTimeoutExpired.map (Reaction.map .qos2)

/-- The retry timer of a publication. -/
def retryOnTimeout : TxEntry → Timer
  | .qos1 p => p.retryOnTimeout
  | .qos2 p => p.retryOnTimeout

/-- The publication with another state of its retry timer. -/
def withTimer (timer : Timer) : TxEntry → TxEntry
  | .qos1 p => .qos1 { p with retryOnTimeout := timer }
  | .qos2 p => .qos2 { p with retryOnTimeout := timer }

end TxEntry

/-- A publication that is not answered in time does not stop the connection. -/
theorem TxEntry.stops_of_ackTimeoutExpired {entry : TxEntry} {reaction : Reaction TxEntry}
    (h : entry.ackTimeoutExpired = .ok reaction) : stops reaction.calls = false := by
  cases entry with
  | qos1 p =>
      rcases map_eq_ok_iff.mp h with ⟨r, hr, rfl⟩
      rcases assert_bind_eq_ok_iff.mp hr with ⟨-, hresult⟩
      split at hresult <;> cases hresult <;> rfl
  | qos2 p =>
      rcases map_eq_ok_iff.mp h with ⟨r, hr, rfl⟩
      rcases assert_bind_eq_ok_iff.mp hr with ⟨-, hresult⟩
      split at hresult
      · split at hresult <;> cases hresult <;> rfl
      · cases hresult
        rfl

/-- The outgoing publications of a session. -/
structure TxInFlightPublications where
  maxRetries : Nat
  publications : Table UInt16 TxEntry
  /-- The packet identifier assigned last. -/
  nextPacketIdentifier : UInt16

namespace TxInFlightPublications

/-- The text logged when a client responds to nothing. -/
def protocolViolation : String :=
  "[MQTT-4.8.0-1] Protocol violation: client sent PUBACK/PUBREC/PUBCOMP without first " ++
    "sending PUBLISH"

/-- The constructor. -/
def create (maxRetries : Nat) : TxInFlightPublications where
  maxRetries := maxRetries
  publications := Table.empty
  nextPacketIdentifier := 0

variable (t : TxInFlightPublications)

/-- The next packet identifier.  After the largest one comes 0. -/
def nextIdentifier : UInt16 :=
  if t.nextPacketIdentifier = 0xFFFF then 0 else t.nextPacketIdentifier + 1

/-- The table after the next packet identifier has been assigned. -/
def assign : TxInFlightPublications :=
  { t with nextPacketIdentifier := t.nextIdentifier }

/-- Send a packet without waiting for a response.  The packet itself is changed. -/
def publishUsingQos0 (incomingPublish : Publish) :
    Except Fault (List SenderCall × Publish) := do
  let incomingPublish ← incomingPublish.setQos .atMostOnce
  return ([.send (.publish incomingPublish)], incomingPublish)

/-- Store a new publication with quality of service 1 and start it.  The packet must not become too
long by its packet identifier. -/
def publishUsingQos1 (incomingPublish : Publish) :
    Except Fault (List SenderCall × TxInFlightPublications) := do
  let outgoingPublish := incomingPublish.withNewPacketIdentifier t.nextIdentifier
  let publication ← Qos1TxPublication.create t.maxRetries outgoingPublish
  let (publications, inserted) :=
    t.publications.emplace outgoingPublish.packetIdentifier (.qos1 publication)
  assert inserted
  -- If the packet is too long {lit}`send` throws here, before the timer is started.
  let (calls, started) := publication.start
  return (calls, { t.assign with
    publications := publications.insert outgoingPublish.packetIdentifier (.qos1 started) })

/-- Store a new publication with quality of service 2 and start it.  The packet must not become too
long by its packet identifier. -/
def publishUsingQos2 (incomingPublish : Publish) :
    Except Fault (List SenderCall × TxInFlightPublications) := do
  let outgoingPublish := incomingPublish.withNewPacketIdentifier t.nextIdentifier
  let publication ← Qos2TxPublication.create t.maxRetries outgoingPublish
  let (publications, inserted) :=
    t.publications.emplace outgoingPublish.packetIdentifier (.qos2 publication)
  assert inserted
  -- If the packet is too long {lit}`send` throws here, before the timer is started.
  let (calls, started) := publication.start
  return (calls, { t.assign with
    publications := publications.insert outgoingPublish.packetIdentifier (.qos2 started) })

/-- Publish a packet to the client, unless its connection is gone.  The result holds
the calls on the connection, the incoming packet and the table afterwards. -/
def publish (connected : Bool) (incomingPublish : Publish) (maximumQos : QoS) :
    Except Fault (List SenderCall × Publish × TxInFlightPublications) := do
  if !connected then
    return ([], incomingPublish, t)
  match maximumQos with
  | .atMostOnce =>
      let (calls, incomingPublish) ← publishUsingQos0 incomingPublish
      return (calls, incomingPublish, t)
  | .atLeastOnce =>
      let (calls, t) ← t.publishUsingQos1 incomingPublish
      return (calls, incomingPublish, t)
  | .exactlyOnce =>
      let (calls, t) ← t.publishUsingQos2 incomingPublish
      return (calls, incomingPublish, t)
  | .reserved => return ([], incomingPublish, t)

/-- Forget a publication. -/
def release (packetIdentifier : UInt16) : Except Fault TxInFlightPublications := do
  assert (t.publications.contains packetIdentifier)
  return { t with publications := t.publications.erase packetIdentifier }

/-- The table with an entry replaced. -/
def update (packetIdentifier : UInt16) (entry : TxEntry) : TxInFlightPublications :=
  { t with publications := t.publications.insert packetIdentifier entry }

/-- The table after the publication under an identifier has reacted. -/
def settle (packetIdentifier : UInt16) (reaction : Reaction TxEntry) :
    Except Fault (List SenderCall × TxInFlightPublications) := do
  let t := t.update packetIdentifier reaction.after
  if reaction.released then
    let t ← t.release packetIdentifier
    return (reaction.calls, t)
  else
    return (reaction.calls, t)

/-- A PUBACK, PUBREC or PUBCOMP has been received. -/
def responseReceived (connected : Bool) (publishAck : PublishAck) :
    Except Fault (List SenderCall × TxInFlightPublications) := do
  assert (isResponse publishAck)
  if !connected then
    return ([], t)
  match t.publications.lookup publishAck.packetIdentifier with
  | some entry =>
      let reaction ← entry.responseReceived publishAck
      t.settle publishAck.packetIdentifier reaction
  | none => return ([.stop protocolViolation], t)

/-- The retry timer of a publication elapses. -/
def timerElapses (packetIdentifier : UInt16) : Option TxInFlightPublications :=
  match t.publications.lookup packetIdentifier with
  | some entry => entry.retryOnTimeout.expire.map fun timer =>
      t.update packetIdentifier (entry.withTimer timer)
  | none => none

/-- A queued handler of the retry timer of a publication runs. -/
def timeout (packetIdentifier : UInt16) :
    Option (Except Fault (List SenderCall × TxInFlightPublications)) :=
  match t.publications.lookup packetIdentifier with
  | some entry => entry.retryOnTimeout.takeExpired.map fun timer =>
      ((entry.withTimer timer).ackTimeoutExpired).bind (t.settle packetIdentifier)
  | none => none

/-! ## What the operations do -/

variable {t}

@[simp]
theorem publications_assign : t.assign.publications = t.publications := rfl

@[simp]
theorem publications_update (i : UInt16) (entry : TxEntry) :
    (t.update i entry).publications = t.publications.insert i entry := rfl

@[simp]
theorem nextPacketIdentifier_update (i : UInt16) (entry : TxEntry) :
    (t.update i entry).nextPacketIdentifier = t.nextPacketIdentifier := rfl

/-- Identifiers are assigned in order. -/
theorem toNat_nextIdentifier (h : t.nextPacketIdentifier.toNat < 65535) :
    t.nextIdentifier.toNat = t.nextPacketIdentifier.toNat + 1 := by
  have hne : t.nextPacketIdentifier ≠ 0xFFFF := by
    intro heq
    simp [heq] at h
  rw [nextIdentifier, if_neg hne, UInt16.toNat_add]
  simp only [UInt16.reduceToNat]
  omega

/-- Settling a reaction that keeps the publication replaces its entry. -/
theorem settle_kept (i : UInt16) (calls : List SenderCall) (after : TxEntry) :
    t.settle i ⟨calls, false, after⟩ = .ok (calls, t.update i after) := rfl

/-- The table without an entry. -/
def remove (t : TxInFlightPublications) (i : UInt16) : TxInFlightPublications :=
  { t with publications := t.publications.erase i }

@[simp]
theorem publications_remove (i : UInt16) :
    (t.remove i).publications = t.publications.erase i := rfl

@[simp]
theorem nextPacketIdentifier_remove (i : UInt16) :
    (t.remove i).nextPacketIdentifier = t.nextPacketIdentifier := rfl

/-- Settling a reaction that releases the publication removes its entry. -/
theorem settle_released (i : UInt16) (calls : List SenderCall) (after : TxEntry) :
    t.settle i ⟨calls, true, after⟩ = .ok (calls, t.remove i) := by
  have hin : (t.publications.insert i after).contains i = true := by
    simp [Table.contains]
  have herase : (t.publications.insert i after).erase i = t.publications.erase i := by
    funext j
    by_cases hj : j = i <;> simp [Table.insert, Table.erase, hj]
  simp [settle, release, hin, herase, remove, update, bind, Except.bind, pure, Except.pure]

/-- The entry of a publication that has just been started. -/
def startedEntry (maxRetries : Nat) (qos : QoS) (publish : Publish) : TxEntry :=
  if qos = .exactlyOnce then
    .qos2 { TxPublication.create maxRetries publish with
      state := .waitingForRec, retryOnTimeout := Timer.idle.restart }
  else
    .qos1 { TxPublication.create maxRetries publish with
      state := .waitingForAck, retryOnTimeout := Timer.idle.restart }

/-- Inserting twice under one key keeps the second value. -/
private theorem insert_insert {ν : Type} (publications : Table UInt16 ν) (i : UInt16) (v w : ν) :
    (publications.insert i v).insert i w = publications.insert i w := by
  funext j
  by_cases hj : j = i
  · simp [Table.insert, hj]
  · simp [Table.insert, hj]

/-- What publishing with quality of service 0 does. -/
theorem publish_atMostOnce (p : Publish) :
    t.publish true p .atMostOnce =
      (p.setQos .atMostOnce >>= fun outgoing =>
        .ok ([.send (.publish outgoing)], outgoing, t)) := by
  rw [publish, publishUsingQos0]
  cases p.setQos .atMostOnce <;> rfl

/-- What publishing under a packet identifier does. -/
theorem publish_numbered {qos : QoS} (h : qos = .atLeastOnce ∨ qos = .exactlyOnce)
    (p : Publish) :
    t.publish true p qos =
      ((p.withNewPacketIdentifier t.nextIdentifier).setQos qos).bind fun outgoing =>
        if t.publications.contains t.nextIdentifier then .error .assertion
        else .ok ([.send (.publish outgoing)], p,
          t.assign.update t.nextIdentifier (startedEntry t.maxRetries qos outgoing)) := by
  rcases h with rfl | rfl
  · rw [publish, publishUsingQos1, Qos1TxPublication.create]
    cases hqos : (p.withNewPacketIdentifier t.nextIdentifier).setQos .atLeastOnce with
    | error f => simp [bind, Except.bind]
    | ok outgoing =>
        by_cases hused : t.publications.contains t.nextIdentifier = true
        · simp [hused, Table.emplace_of_contains, bind, Except.bind, pure, Except.pure]
        · have hfree := (t.publications.contains_eq_false_iff _).mp (Bool.not_eq_true _ ▸ hused)
          simp [hused, Table.emplace_eq_insert hfree, insert_insert, bind, Except.bind,
            pure, Except.pure, Qos1TxPublication.start, Qos1TxPublication.startAckTimeout,
            startedEntry, update, TxPublication.create]
  · rw [publish, publishUsingQos2, Qos2TxPublication.create]
    cases hqos : (p.withNewPacketIdentifier t.nextIdentifier).setQos .exactlyOnce with
    | error f => simp [bind, Except.bind]
    | ok outgoing =>
        by_cases hused : t.publications.contains t.nextIdentifier = true
        · simp [hused, Table.emplace_of_contains, bind, Except.bind, pure, Except.pure]
        · have hfree := (t.publications.contains_eq_false_iff _).mp (Bool.not_eq_true _ ▸ hused)
          simp [hused, Table.emplace_eq_insert hfree, insert_insert, bind, Except.bind,
            pure, Except.pure, Qos2TxPublication.start, Qos2TxPublication.startAckTimeout,
            startedEntry, update, TxPublication.create]

/-- When publishing under a packet identifier succeeds. -/
theorem publish_numbered_eq_ok_iff {qos : QoS} (h : qos = .atLeastOnce ∨ qos = .exactlyOnce)
    {p p' : Publish} {calls : List SenderCall} {t' : TxInFlightPublications} :
    t.publish true p qos = .ok (calls, p', t') ↔
      ∃ outgoing, (p.withNewPacketIdentifier t.nextIdentifier).setQos qos = .ok outgoing ∧
        t.publications.lookup t.nextIdentifier = none ∧
        calls = [.send (.publish outgoing)] ∧ p' = p ∧
        t' = t.assign.update t.nextIdentifier (startedEntry t.maxRetries qos outgoing) := by
  rw [publish_numbered h]
  constructor
  · intro hpublish
    cases hqos : (p.withNewPacketIdentifier t.nextIdentifier).setQos qos with
    | error f =>
        rw [hqos] at hpublish
        cases hpublish
    | ok outgoing =>
        rw [hqos, Except.bind] at hpublish
        split at hpublish
        · cases hpublish
        · rename_i hunused
          have hfree := (t.publications.contains_eq_false_iff _).mp (Bool.not_eq_true _ ▸ hunused)
          cases hpublish
          exact ⟨outgoing, rfl, hfree, rfl, rfl, rfl⟩
  · rintro ⟨outgoing, hqos, hfree, rfl, rfl, rfl⟩
    rw [hqos, Except.bind, (t.publications.contains_eq_false_iff _).mpr hfree]
    rfl

/-- What publishing a packet does. -/
inductive Publishes (t : TxInFlightPublications) (p : Publish) :
    Bool → QoS → List SenderCall → Publish → TxInFlightPublications → Prop
  /-- Nothing is sent without a connection, or with the reserved quality of service. -/
  | nothing (connected : Bool) (qos : QoS) (h : connected = true → qos = .reserved) :
      Publishes t p connected qos [] p t
  /-- The packet itself is sent. -/
  | itself (outgoing : Publish) (hset : p.setQos .atMostOnce = .ok outgoing) :
      Publishes t p true .atMostOnce [.send (.publish outgoing)] outgoing t
  /-- A copy is sent, and an entry is stored. -/
  | copy (qos : QoS) (hqos : qos = .atLeastOnce ∨ qos = .exactlyOnce) (outgoing : Publish)
      (hset : (p.withNewPacketIdentifier t.nextIdentifier).setQos qos = .ok outgoing)
      (hfree : t.publications.lookup t.nextIdentifier = none) :
      Publishes t p true qos [.send (.publish outgoing)] p
        (t.assign.update t.nextIdentifier (startedEntry t.maxRetries qos outgoing))

theorem publishes_of_publish {connected : Bool} {p p' : Publish} {qos : QoS}
    {calls : List SenderCall} {t' : TxInFlightPublications}
    (h : t.publish connected p qos = .ok (calls, p', t')) :
    t.Publishes p connected qos calls p' t' := by
  cases connected with
  | false =>
      cases h
      exact .nothing false qos (fun hfalse => by cases hfalse)
  | true =>
      cases qos with
      | reserved =>
          cases h
          exact .nothing true .reserved (fun _ => rfl)
      | atMostOnce =>
          rw [publish_atMostOnce] at h
          rcases bind_eq_ok_iff.mp h with ⟨outgoing, hset, hresult⟩
          cases hresult
          exact .itself _ hset
      | atLeastOnce | exactlyOnce =>
          rcases (publish_numbered_eq_ok_iff (by decide)).mp h with
            ⟨outgoing, hset, hfree, rfl, rfl, rfl⟩
          exact .copy _ (by decide) outgoing hset hfree

/-- Publishing under a free identifier sends the packet and waits for a PUBREC. -/
theorem publish_exactlyOnce {incomingPublish : Publish}
    (hqos : incomingPublish.qos ≠ .reserved)
    (hfree : t.publications.lookup t.nextIdentifier = none) :
    ∃ q : Qos2TxPublication,
      t.publish true incomingPublish .exactlyOnce =
        .ok ([.send (.publish q.publish)], incomingPublish,
          t.assign.update t.nextIdentifier (.qos2 q)) ∧
      q.state = .waitingForRec ∧ q.packetIdentifier = t.nextIdentifier ∧
        q.publish.qos = .exactlyOnce ∧ q.maxRetries = t.maxRetries ∧ q.retryCount = 0 := by
  have hqos' : (incomingPublish.withNewPacketIdentifier t.nextIdentifier).qos ≠ .reserved :=
    hqos
  rcases Publish.setQos_eq_ok hqos' .exactlyOnce with ⟨outgoing, houtgoing⟩
  have hid : outgoing.packetIdentifier = t.nextIdentifier := (Publish.setQos_frame houtgoing).2.1
  refine ⟨{ TxPublication.create t.maxRetries outgoing with
    state := .waitingForRec, retryOnTimeout := Timer.idle.restart }, ?_, rfl, hid,
    Publish.qos_of_setQos houtgoing, rfl, rfl⟩
  rw [publish_numbered_eq_ok_iff (Or.inr rfl)]
  exact ⟨outgoing, houtgoing, hfree, rfl, rfl, rfl⟩

/-- Settling a reaction makes its calls. -/
theorem calls_of_settle {i : UInt16} {reaction : Reaction TxEntry} {calls : List SenderCall}
    {t' : TxInFlightPublications} (h : t.settle i reaction = .ok (calls, t')) :
    calls = reaction.calls := by
  rcases reaction with ⟨reactionCalls, released, after⟩
  cases released with
  | false =>
      rw [settle_kept] at h
      cases h
      rfl
  | true =>
      rw [settle_released] at h
      cases h
      rfl

/-- A response under an identifier that is not in use stops the connection. -/
theorem responseReceived_unknown {ack : PublishAck} (hack : isResponse ack = true)
    (hfree : t.publications.lookup ack.packetIdentifier = none) :
    t.responseReceived true ack = .ok ([.stop protocolViolation], t) := by
  simp [responseReceived, hack, hfree, bind, Except.bind, pure, Except.pure]

/-- A response is routed to the publication stored under its identifier. -/
theorem responseReceived_qos2 {ack : PublishAck} {p : Qos2TxPublication}
    (hack : isResponse ack = true)
    (hp : t.publications.lookup ack.packetIdentifier = some (.qos2 p)) :
    t.responseReceived true ack =
      (p.responseReceived ack).bind fun reaction =>
        t.settle ack.packetIdentifier (reaction.map .qos2) := by
  simp only [responseReceived, hack, assert_true, bind, Except.bind, Bool.not_true,
    Bool.false_eq_true, if_false, hp, TxEntry.responseReceived]
  cases p.responseReceived ack <;> rfl

/-- A timer handler runs the publication stored under its identifier. -/
theorem timeout_qos2 {i : UInt16} {p : Qos2TxPublication}
    {answer : Except Fault (List SenderCall × TxInFlightPublications)}
    (hp : t.publications.lookup i = some (.qos2 p)) (h : t.timeout i = some answer) :
    ∃ timer, answer =
      (({ p with retryOnTimeout := timer } : Qos2TxPublication).ackTimeoutExpired).bind
        fun reaction => t.settle i (reaction.map .qos2) := by
  simp only [timeout, hp, TxEntry.retryOnTimeout, TxEntry.withTimer,
    Option.map_eq_some_iff] at h
  obtain ⟨timer, -, rfl⟩ := h
  refine ⟨timer, ?_⟩
  simp only [TxEntry.ackTimeoutExpired]
  cases Qos2TxPublication.ackTimeoutExpired _ <;> rfl

/-- A timer handler does not stop the connection. -/
theorem stops_of_timeout {i : UInt16} {calls : List SenderCall} {t' : TxInFlightPublications}
    (h : t.timeout i = some (.ok (calls, t'))) : stops calls = false := by
  unfold timeout at h
  cases hentry : t.publications.lookup i with
  | none => simp [hentry] at h
  | some entry =>
      simp only [hentry, Option.map_eq_some_iff] at h
      rcases h with ⟨timer, -, hresult⟩
      rcases bind_eq_ok_iff.mp hresult with ⟨reaction, hreaction, hsettle⟩
      rw [calls_of_settle hsettle]
      exact TxEntry.stops_of_ackTimeoutExpired hreaction

/-- A timer that elapses changes the timer of one publication. -/
theorem timerElapses_cases {i : UInt16} {t' : TxInFlightPublications}
    (h : t.timerElapses i = some t') :
    ∃ entry timer, t.publications.lookup i = some entry ∧
      t' = t.update i (entry.withTimer timer) := by
  unfold timerElapses at h
  cases hentry : t.publications.lookup i with
  | none => simp [hentry] at h
  | some entry =>
      simp only [hentry, Option.map_eq_some_iff] at h
      obtain ⟨timer, -, rfl⟩ := h
      exact ⟨entry, timer, rfl, rfl⟩

end TxInFlightPublications

end Dispatch
end WallyIo
