import WallyIo.Dispatch.ManagerSteps

/-!
# The end of a session

An event that ends a session leaves nothing of it in the store, and a last will is published
if the client has gone without a DISCONNECT.  A protocol violation stops the connection of
a session and leaves the session in the store.

Main results:

- Theorem {lit}`profile_of_ends`: a session that ends is not stored any longer.
- Theorem {lit}`announced_of_ungraceful`: when a last will is published.
- Theorem {lit}`stopped_iff`: when a connection is stopped.
-/

namespace WallyIo
namespace Dispatch

open Protocol Library

/-! ## Protocol violations -/

namespace MqttClientSession

/-- Whether an acknowledgement is a protocol violation. -/
def violates (s : MqttClientSession) : PublishAck → Bool
  | .pubrel i => !s.rxInFlightPublications.publications.contains i
  | ack =>
      match s.txInFlightPublications.publications.lookup ack.packetIdentifier with
      | some (.qos1 _) => false
      | some (.qos2 p) => p.state == .waitingForRec && ack.type != .pubrec
      | none => true

variable {s s' : MqttClientSession} {calls : List SenderCall} {connected : Bool}

/-- A publication is answered by a violation only while it waits for a PUBREC. -/
theorem stops_of_entry {entry : TxEntry} {ack : PublishAck} {reaction : Reaction TxEntry}
    (h : entry.responseReceived ack = .ok reaction) :
    stops reaction.calls =
      match entry with
      | .qos1 _ => false
      | .qos2 p => p.state == .waitingForRec && ack.type != .pubrec := by
  cases entry with
  | qos1 p =>
      rcases map_eq_ok_iff.mp h with ⟨r, hr, rfl⟩
      rcases assert_bind_eq_ok_iff.mp hr with ⟨-, hr⟩
      rcases assert_bind_eq_ok_iff.mp hr with ⟨-, hr⟩
      rcases assert_bind_eq_ok_iff.mp hr with ⟨-, hr⟩
      cases hr
      rfl
  | qos2 p =>
      rcases map_eq_ok_iff.mp h with ⟨r, hr, rfl⟩
      by_cases hrec : p.state = .waitingForRec
      · rw [Qos2TxPublication.responseReceived_of_waitingForRec hrec] at hr
        split at hr
        · rename_i hne
          cases hr
          simp [hrec, hne, Reaction.map]
        · rename_i heq
          split at hr
          · cases hr
            simp only [ne_eq, not_not] at heq
            simp [heq, Reaction.map]
          · cases hr
      · by_cases hcomp : p.state = .waitingForComp
        · rw [Qos2TxPublication.responseReceived_of_waitingForComp hcomp] at hr
          split at hr
          · cases hr
            simp [hcomp, Reaction.map]
          · split at hr
            · cases hr
              simp [hcomp, Reaction.map]
            · cases hr
        · rw [Qos2TxPublication.responseReceived_of_not_waiting hrec hcomp] at hr
          cases hr

/-- A response stops the connection exactly if it is a violation. -/
theorem stops_of_responseReceived {ack : PublishAck} (hack : ack.type ≠ .pubrel)
    (h : s.responseReceived connected ack = .ok (calls, s')) :
    stops calls = (connected && s.violates ack) := by
  rcases responseReceived_eq_ok_iff.mp h with ⟨t, ht, -⟩
  rcases assert_bind_eq_ok_iff.mp ht with ⟨hresponse, hrest⟩
  cases connected with
  | false =>
      cases hrest
      rfl
  | true =>
      have hviolates : s.violates ack =
          match s.txInFlightPublications.publications.lookup ack.packetIdentifier with
          | some (.qos1 _) => false
          | some (.qos2 p) => p.state == .waitingForRec && ack.type != .pubrec
          | none => true := by
        cases ack with
        | pubrel i => exact absurd rfl hack
        | puback | pubrec | pubcomp => rfl
      rw [Bool.true_and, hviolates]
      cases hentry : s.txInFlightPublications.publications.lookup ack.packetIdentifier with
      | none =>
          rw [TxInFlightPublications.responseReceived_unknown hresponse hentry] at ht
          cases ht
          rfl
      | some entry =>
          simp only [Bool.not_true, Bool.false_eq_true, if_false, hentry] at hrest
          rcases bind_eq_ok_iff.mp hrest with ⟨reaction, hreaction, hsettle⟩
          rw [TxInFlightPublications.calls_of_settle hsettle, stops_of_entry hreaction]
          cases entry <;> rfl

/-- A PUBREL stops the connection exactly if it is a violation. -/
theorem stops_of_clientReleasedPublish {i : UInt16}
    (h : s.clientReleasedPublish connected i = .ok (calls, s')) :
    stops calls = (connected && s.violates (.pubrel i)) := by
  rcases clientReleasedPublish_eq_ok_iff.mp h with ⟨t, ht, -⟩
  cases connected with
  | false =>
      cases ht
      rfl
  | true =>
      rw [violates, Bool.true_and, Table.contains]
      cases hp : s.rxInFlightPublications.publications.lookup i with
      | none =>
          rw [RxInFlightPublications.clientSentPubrel_unknown hp] at ht
          cases ht
          rfl
      | some stored =>
          simp only [RxInFlightPublications.clientSentPubrel, Bool.not_true,
            Bool.false_eq_true, if_false, hp] at ht
          rcases bind_eq_ok_iff.mp ht with ⟨reaction, hreaction, hsettle⟩
          rw [RxInFlightPublications.calls_of_settle hsettle]
          rcases assert_bind_eq_ok_iff.mp hreaction with ⟨-, hrest⟩
          rcases assert_bind_eq_ok_iff.mp hrest with ⟨-, hresult⟩
          cases hresult
          rfl

/-- A publication in flight answers by one call at most. -/
theorem length_calls_of_entry {entry : TxEntry} {ack : PublishAck} {reaction : Reaction TxEntry}
    (h : entry.responseReceived ack = .ok reaction) : reaction.calls.length ≤ 1 := by
  cases entry with
  | qos1 p =>
      obtain ⟨r, hr, rfl⟩ := map_eq_ok_iff.mp h
      obtain ⟨-, hr⟩ := assert_bind_eq_ok_iff.mp hr
      obtain ⟨-, hr⟩ := assert_bind_eq_ok_iff.mp hr
      obtain ⟨-, hr⟩ := assert_bind_eq_ok_iff.mp hr
      cases hr
      exact Nat.zero_le 1
  | qos2 p =>
      obtain ⟨r, hr, rfl⟩ := map_eq_ok_iff.mp h
      by_cases hrec : p.state = .waitingForRec
      · rw [Qos2TxPublication.responseReceived_of_waitingForRec hrec] at hr
        split at hr
        · cases hr
          exact Nat.le_refl 1
        · split at hr
          · cases hr
            exact Nat.le_refl 1
          · cases hr
      · by_cases hcomp : p.state = .waitingForComp
        · rw [Qos2TxPublication.responseReceived_of_waitingForComp hcomp] at hr
          split at hr
          · cases hr
            exact Nat.le_refl 1
          · split at hr
            · cases hr
              exact Nat.zero_le 1
            · cases hr
        · rw [Qos2TxPublication.responseReceived_of_not_waiting hrec hcomp] at hr
          cases hr

theorem length_calls_of_responseReceived {ack : PublishAck}
    (h : s.responseReceived connected ack = .ok (calls, s')) : calls.length ≤ 1 := by
  obtain ⟨t, ht, -⟩ := responseReceived_eq_ok_iff.mp h
  obtain ⟨hresponse, hrest⟩ := assert_bind_eq_ok_iff.mp ht
  cases connected with
  | false =>
      cases hrest
      exact Nat.zero_le 1
  | true =>
      cases hentry : s.txInFlightPublications.publications.lookup ack.packetIdentifier with
      | none =>
          rw [TxInFlightPublications.responseReceived_unknown hresponse hentry] at ht
          cases ht
          exact Nat.le_refl 1
      | some entry =>
          simp only [Bool.not_true, Bool.false_eq_true, if_false, hentry] at hrest
          obtain ⟨reaction, hreaction, hsettle⟩ := bind_eq_ok_iff.mp hrest
          rw [TxInFlightPublications.calls_of_settle hsettle]
          exact length_calls_of_entry hreaction

theorem length_calls_of_clientReleasedPublish {i : UInt16}
    (h : s.clientReleasedPublish connected i = .ok (calls, s')) : calls.length ≤ 1 := by
  obtain ⟨t, ht, -⟩ := clientReleasedPublish_eq_ok_iff.mp h
  cases connected with
  | false =>
      cases ht
      exact Nat.zero_le 1
  | true =>
      cases hp : s.rxInFlightPublications.publications.lookup i with
      | none =>
          rw [RxInFlightPublications.clientSentPubrel_unknown hp] at ht
          cases ht
          exact Nat.le_refl 1
      | some stored =>
          simp only [RxInFlightPublications.clientSentPubrel, Bool.not_true,
            Bool.false_eq_true, if_false, hp] at ht
          obtain ⟨reaction, hreaction, hsettle⟩ := bind_eq_ok_iff.mp ht
          rw [RxInFlightPublications.calls_of_settle hsettle]
          obtain ⟨-, hrest⟩ := assert_bind_eq_ok_iff.mp hreaction
          obtain ⟨-, hresult⟩ := assert_bind_eq_ok_iff.mp hrest
          cases hresult
          exact Nat.le_refl 1

end MqttClientSession

/-! ## Stopped connections -/

namespace SessionManager

/-- Whether a connection is stopped. -/
def stopped (effects : List Effect) (k : ConnectionId) : Bool :=
  effects.any fun
    | .call _ j call => j == k && call.isStop
    | .publish _ => false

variable {connections : Connections} {m m' start : SessionManager} {event : Event}
  {effects : List Effect} {x : Bytes} {k : ConnectionId}

@[simp]
theorem stopped_append (effects more : List Effect) :
    stopped (effects ++ more) k = (stopped effects k || stopped more k) := by
  simp [stopped]

/-- The calls of a session stop its connection or none. -/
theorem stopped_callsOf (entry : SessionEntry) (calls : List SenderCall) :
    stopped (callsOf x entry calls) k = (entry.connection == k && stops calls) := by
  induction calls with
  | nil => simp [callsOf, stopped]
  | cons call calls ih =>
      have hcons : stopped (callsOf x entry (call :: calls)) k =
          ((entry.connection == k && call.isStop) || stopped (callsOf x entry calls) k) := rfl
      have hstops : stops (call :: calls) = (call.isStop || stops calls) := rfl
      rw [hcons, ih, hstops, Bool.and_or_distrib_left]

/-- Handing a packet to a session stops nothing. -/
theorem stops_of_handed {s s' : MqttClientSession} {isConnected : Bool} {p p' : Publish}
    {q : QoS} {calls : List SenderCall}
    (h : s.publish isConnected p q = .ok (calls, p', s')) : stops calls = false := by
  apply List.any_eq_false.mpr
  intro call hcall
  rcases publish_of_handed h hcall with ⟨p, rfl⟩
  exact Bool.false_ne_true

/-- No act stops a connection, unless an acknowledgement has been received. -/
theorem stopped_of_act (hack : event.isAck = false)
    (h : Act connections start event m effects m') : stopped effects k = false := by
  cases h with
  | acknowledged y entry packet hy hentry hpacket =>
      rw [stopped_callsOf]
      exact Bool.and_false _
  | advanced y entry calls session hy hentry hadvances hquiet hstops =>
      rw [stopped_callsOf, hstops hack, Bool.and_false]
  | handed y entry p q calls p' session hentry hp hpublish =>
      rw [stopped_callsOf, stops_of_handed hpublish, Bool.and_false]
  | created | removed | subscribed | unsubscribed | subscriptionsReordered | messagesReordered
  | announced | lowered | kept => rfl

/-- No event but an acknowledgement stops a connection. -/
theorem stopped_of_not_ack (hack : event.isAck = false)
    (h : m.perform connections event = some (.ok (effects, m'))) :
    stopped effects k = false := by
  refine (trace_of_perform h).invariant (fun pre _ => stopped pre k = false) [] ?_ rfl
  intro pre t more t' hpre hact
  rw [stopped_append, hpre, stopped_of_act hack hact, Bool.false_or]

/-- An acknowledgement stops the connection of the client's session exactly if it is a
violation. -/
theorem stopped_of_ack {ack : PublishAck}
    (h : m.perform connections (.clientAcked x ack) = some (.ok (effects, m'))) :
    stopped effects k = true ↔ ∃ entry, m.sessions.lookup x = some entry ∧
      entry.connection = k ∧ connected connections entry = true ∧
        entry.session.violates ack = true := by
  have honSession : ∀ answer : Bool → MqttClientSession →
      Except Fault (List SenderCall × MqttClientSession),
      (∀ isConnected s calls s', answer isConnected s = .ok (calls, s') →
        stops calls = (isConnected && s.violates ack)) →
      m.onSession connections x answer = .ok (effects, m') →
        (stopped effects k = true ↔ ∃ entry, m.sessions.lookup x = some entry ∧
          entry.connection = k ∧ connected connections entry = true ∧
            entry.session.violates ack = true) := by
    intro answer hanswer honSession
    rcases onSession_eq_ok_iff.mp honSession with
      ⟨entry, calls, session, hentry, hsession, rfl, -⟩ | ⟨hentry, rfl, -⟩
    · rw [stopped_callsOf, hanswer _ _ _ _ hsession]
      simp [hentry]
    · simp [stopped, hentry]
  simp only [perform, Option.some.injEq] at h
  cases ack with
  | puback i | pubrec i | pubcomp i =>
      simp only [clientAcked, clientAckedPublish, clientReceivedPublish,
        clientCompletedPublish] at h
      refine honSession _ ?_ h
      exact fun _ _ _ _ hsession =>
        MqttClientSession.stops_of_responseReceived (fun htype => by cases htype) hsession
  | pubrel i =>
      simp only [clientAcked, clientReleasedPublish] at h
      refine honSession _ ?_ h
      exact fun _ _ _ _ hsession => MqttClientSession.stops_of_clientReleasedPublish hsession

/-- When a connection is stopped. -/
theorem stopped_iff (h : m.perform connections event = some (.ok (effects, m'))) :
    stopped effects k = true ↔ ∃ x ack entry, event = .clientAcked x ack ∧
      m.sessions.lookup x = some entry ∧ entry.connection = k ∧
        connected connections entry = true ∧ entry.session.violates ack = true := by
  constructor
  · intro hstopped
    cases hack : event.isAck with
    | false =>
        rw [stopped_of_not_ack hack h] at hstopped
        cases hstopped
    | true =>
        cases event with
        | clientAcked x ack =>
            rcases (stopped_of_ack h).mp hstopped with ⟨entry, hentry⟩
            exact ⟨x, ack, entry, rfl, hentry⟩
        | _ => cases hack
  · rintro ⟨x, ack, entry, rfl, hentry⟩
    exact (stopped_of_ack h).mpr ⟨entry, hentry⟩

/-- An acknowledgement makes the session manager do one thing at most. -/
theorem length_effects_of_ack {ack : PublishAck}
    (h : m.perform connections (.clientAcked x ack) = some (.ok (effects, m'))) :
    effects.length ≤ 1 := by
  have honSession : ∀ answer : Bool → MqttClientSession →
      Except Fault (List SenderCall × MqttClientSession),
      (∀ isConnected s calls s', answer isConnected s = .ok (calls, s') → calls.length ≤ 1) →
        m.onSession connections x answer = .ok (effects, m') → effects.length ≤ 1 := by
    intro answer hanswer honSession
    rcases onSession_eq_ok_iff.mp honSession with
      ⟨entry, calls, session, -, hsession, rfl, -⟩ | ⟨-, rfl, -⟩
    · rw [callsOf, List.length_map]
      exact hanswer _ _ _ _ hsession
    · exact Nat.zero_le 1
  simp only [perform, Option.some.injEq] at h
  cases ack with
  | puback i | pubrec i | pubcomp i =>
      simp only [clientAcked, clientAckedPublish, clientReceivedPublish,
        clientCompletedPublish] at h
      exact honSession _ (fun _ _ _ _ => MqttClientSession.length_calls_of_responseReceived) h
  | pubrel i =>
      simp only [clientAcked, clientReleasedPublish] at h
      exact honSession _ (fun _ _ _ _ => MqttClientSession.length_calls_of_clientReleasedPublish) h

/-- When a connection is stopped nothing is sent on it. -/
theorem not_sent_of_stopped (h : m.perform connections event = some (.ok (effects, m')))
    (hstopped : stopped effects k = true) (packet : MqttPacket) :
    .call x k (.send packet) ∉ effects := by
  obtain ⟨y, ack, -, rfl, -⟩ := (stopped_iff h).mp hstopped
  intro hmem
  have hlength := length_effects_of_ack h
  obtain ⟨effect, rfl⟩ : ∃ effect, effects = [effect] :=
    List.length_eq_one_iff.mp (Nat.le_antisymm hlength (List.length_pos_of_mem hmem))
  cases List.mem_singleton.mp hmem
  simp [stopped, SenderCall.isStop] at hstopped

/-! ## Sessions that are gone -/

/-- Publishing a packet removes no session. -/
theorem profile_of_publish {p p' : Publish}
    (h : m.publish connections p = .ok (effects, p', m')) : m'.profile x = m.profile x := by
  rcases publish_eq_ok_iff_publishTo.mp h with ⟨calls, hloop, rfl⟩
  refine publishTo_invariant (fun _ _ t => t.profile x = m.profile x) [] ?_ rfl hloop
  intro pre p t y q entry calls p' session hinv hmem hentry hpublish
  rcases MqttClientSession.publish_eq_ok_iff.mp hpublish with ⟨t', -, rfl⟩
  rw [← hinv]
  exact profile_update hentry rfl rfl

/-- A session that ends is not stored any longer. -/
theorem profile_of_ends (h : m.perform connections event = some (.ok (effects, m')))
    (hends : m.Ends connections x event) : m'.profile x = none := by
  cases event with
  | clientDisconnected y reason =>
      cases h
      rw [clientDisconnected, profile_remove, if_pos (Eq.symm hends)]
  | destroy y =>
      cases h
      rw [destroy, profile_remove, if_pos (Eq.symm hends)]
  | clientDisconnectedUngracefully y reason =>
      have hyx : y = x := hends
      subst hyx
      have hremoved : (m.remove y).profile y = none := by rw [profile_remove, if_pos rfl]
      rcases clientDisconnectedUngracefully_eq_ok_iff.mp (Option.some.inj h) with
        ⟨entry, lwt, p, -, -, hpublish⟩ | ⟨entry, -, -, -, rfl⟩ | ⟨hnone, -, rfl⟩
      · rw [profile_of_publish hpublish]
        exact hremoved
      · exact hremoved
      · rw [profile, hnone, Option.map_none]
  | clientUnsubscribed y unsubscribe =>
      rcases hends with ⟨entry, hentry, hconnected, rfl⟩
      simp only [perform, clientUnsubscribed, hentry, send, hconnected, Bool.false_eq_true,
        if_false, Option.some.injEq] at h
      cases h
      rw [destroy, profile_remove, if_pos rfl]
  | clientSubscribed y subscribe =>
      rcases hends with ⟨entry, hentry, hconnected, rfl⟩
      simp only [perform, clientSubscribed, hentry, send, hconnected, Bool.false_eq_true,
        if_false, Option.some.injEq] at h
      rcases bind_eq_ok_iff.mp h with ⟨⟨calls, r, session⟩, hloop, hresult⟩
      cases hresult
      rw [profile, lookup_update]
      split
      · rename_i heq
        rw [← heq, destroy, sessions_remove, Table.lookup_erase_self]
        rfl
      · rw [destroy, sessions_remove, Table.lookup_erase_self]
        rfl
  | clientConnected | clientPublished | clientAcked | txTimerElapses | txTimeout
  | rxTimerElapses | rxTimeout | subscriptionsReordered | messagesReordered => exact hends.elim

/-- What becomes of a session when no client connects. -/
theorem profile_of_perform (h : m.perform connections event = some (.ok (effects, m')))
    (hevent : ∀ connect k, event ≠ .clientConnected connect k) :
    m'.profile x = m.profile x ∨ m.Ends connections x event ∧ m'.profile x = none := by
  generalize hp : m'.profile x = p
  have hfate : Fate m connections event x p := hp ▸ fate_of_perform h
  cases hfate with
  | same => exact Or.inl rfl
  | removed hends => exact Or.inr ⟨hends, rfl⟩
  | created connect k he => exact absurd he (hevent connect k)

/-- A client that connects gets a session, if there is none. -/
theorem profile_of_connected {connect : Connect}
    (h : m.perform connections (.clientConnected connect k) = some (.ok (effects, m')))
    (hx : connections k = some (some x)) (hfree : m.profile x = none) :
    m'.profile x = some (createdProfile connect k) := by
  have hlookup : m.sessions.lookup x = none := Option.map_eq_none_iff.mp hfree
  rcases map_eq_ok_iff.mp (Option.some.inj h) with ⟨m'', hconnected, hresult⟩
  cases hresult
  rcases clientConnected_eq_ok_iff.mp hconnected with
    ⟨y, hy, -, rfl⟩ | ⟨y, entry, hy, hentry, -⟩ | ⟨hgone, -⟩
  · rw [hx] at hy
    cases hy
    rw [profile_insert, if_pos rfl]
    rfl
  · rw [hx] at hy
    cases hy
    rw [hlookup] at hentry
    cases hentry
  · rw [hx] at hgone
    cases hgone

/-! ## Last wills -/

/-- The packets that are published to all subscribers. -/
def published (effects : List Effect) : List Publish :=
  effects.filterMap fun
    | .publish p => some p
    | .call _ _ _ => none

@[simp]
theorem published_nil : published [] = [] := rfl

@[simp]
theorem published_append (effects more : List Effect) :
    published (effects ++ more) = published effects ++ published more :=
  List.filterMap_append

@[simp]
theorem published_publish (p : Publish) (effects : List Effect) :
    published (.publish p :: effects) = p :: published effects := rfl

@[simp]
theorem published_callsOf (x : Bytes) (entry : SessionEntry) (calls : List SenderCall) :
    published (callsOf x entry calls) = [] := by
  rw [published, callsOf, List.filterMap_map, List.filterMap_eq_nil_iff]
  exact fun _ _ => rfl

/-- Only one packet is published when a packet is published. -/
theorem published_of_publish {p p' : Publish}
    (h : m.publish connections p = .ok (effects, p', m')) : published effects = [p] := by
  obtain ⟨calls, hloop, rfl⟩ := publish_eq_ok_iff_publishTo.mp h
  have hcalls : published calls = [] := by
    refine publishTo_invariant (fun calls _ _ => published calls = []) [] ?_ rfl hloop
    intro pre p t y q entry calls p' session hpre hmem hentry hpublish
    rw [published_append, published_callsOf, hpre, List.append_nil]
  rw [published_publish, hcalls]

/-- The packets that are published are the ones that are announced. -/
theorem mem_published_iff {q : Publish} : q ∈ published effects ↔ .publish q ∈ effects := by
  rw [published, List.mem_filterMap]
  constructor
  · rintro ⟨e, hmem, he⟩
    cases e with
    | publish p =>
        cases he
        exact hmem
    | call => cases he
  · exact fun hmem => ⟨_, hmem, rfl⟩

/-- Only one packet is announced when a packet is published. -/
theorem announced_of_publish {p p' q : Publish}
    (h : m.publish connections p = .ok (effects, p', m')) : .publish q ∈ effects ↔ q = p := by
  rw [← mem_published_iff, published_of_publish h, List.mem_singleton]

/-- The last will of the session of a client. -/
def lastWillOf (m : SessionManager) (x : Bytes) : Option Publish :=
  (m.sessions.lookup x).bind fun entry => entry.session.lastWill

/-- When a last will is published. -/
theorem announced_of_ungraceful {reason : DisconnectReason} {q : Publish}
    (h : m.perform connections (.clientDisconnectedUngracefully x reason) =
      some (.ok (effects, m'))) :
    .publish q ∈ effects ↔ m.lastWillOf x = some q := by
  rcases clientDisconnectedUngracefully_eq_ok_iff.mp (Option.some.inj h) with
    ⟨entry, lwt, p, hentry, hwill, hpublish⟩ | ⟨entry, hentry, hwill, rfl, -⟩ | ⟨hnone, rfl, -⟩
  · rw [lastWillOf, hentry, Option.bind_some, announced_of_publish hpublish, hwill,
      Option.some.injEq]
    exact eq_comm
  · simp [lastWillOf, hentry, hwill]
  · simp [lastWillOf, hnone]

end SessionManager

end Dispatch
end WallyIo
