import WallyIo.Codec.ConnectCodec
import WallyIo.Dispatch.FanOut
import WallyIo.Dispatch.SessionEnds

/-!
# The delivery of last wills

The flags of a last will are taken from the CONNECT of a client as they are.  The RETAIN flag
is looked at by the dispatcher, and the quality of service when the last will is published,
possibly much later.

Main results:

- Theorem {lit}`sendsLastWill_iff`: when the other clients are sent a last will.
- Theorem {lit}`profile_of_later`: the session of a client keeps the last will of its CONNECT.
- Theorem {lit}`lastWill_iff`: for which CONNECT frames, and in which states, a last will can be
  published.
-/

namespace WallyIo
namespace Dispatch

open Protocol Library Codec

/-- The packet that a session is sent has the RETAIN flag of the one that is published. -/
theorem retain_outgoing {p : Publish} (h : Announced p) (hold : p.qos ≠ .reserved) {q : QoS}
    (hq : q ≠ .reserved) (s : MqttClientSession) : (outgoing p s q).retain = p.retain := by
  have hretain := (Publish.flags_of_setQos (setQos_eq_atQos h hold hq)).2
  unfold outgoing
  split
  · exact hretain
  · exact hretain

namespace SessionManager

variable (m : SessionManager) (connections : Connections) (x : Bytes) (topic message : Bytes)

/-- Another client with a session whose connection still exists. -/
def OtherConnected (y : Bytes) (entry : SessionEntry) : Prop :=
  y ≠ x ∧ m.sessions.lookup y = some entry ∧ connected connections entry = true

/-- A client has a matching subscription that is not for the reserved quality of service. -/
def Interested (y : Bytes) : Prop :=
  ∃ q ∈ m.topicSubscriptions.matchingQos y topic, q ≠ .reserved

/-- When a client has gone without a DISCONNECT, every other connected client with a matching
subscription is sent the last will once, not retained and with the quality of service that the
client is resolved with.  No assertion fails. -/
def SendsLastWill (reason : DisconnectReason) : Prop :=
  ∃ effects m', m.perform connections (.clientDisconnectedUngracefully x reason) =
      some (.ok (effects, m')) ∧
    ∀ y entry, m.OtherConnected connections x y entry → m.Interested topic y →
      ∃ out, publishesTo y effects = [out] ∧ out.topic = topic ∧
        out.applicationMessage = message ∧ out.retain = false ∧
        IsGreatest (m.topicSubscriptions.matchingQos y topic) out.qos

/-- All others that are resolved as subscribers of a client's last will can be handed it. -/
def LastWillDeliverable : Prop :=
  ∀ lwt y q entry, m.lastWillOf x = some lwt → m.OtherConnected connections x y entry →
    (y, q) ∈ m.topicSubscriptions.resolveSubscribers lwt → Ready lwt entry.session q

/-- The session of a client keeps a last will with some topic and message. -/
def KeepsLastWill : Prop :=
  ∃ lwt, m.lastWillOf x = some lwt ∧ lwt.topic = topic ∧ lwt.applicationMessage = message

/-- If another connected client has a matching subscription, the session keeps the last will,
and the other client is not resolved with the reserved quality of service. -/
def LastWillExpected : Prop :=
  ∀ y entry, m.OtherConnected connections x y entry → m.Interested topic y →
    m.KeepsLastWill x topic message ∧ .reserved ∉ m.topicSubscriptions.matchingQos y topic

section Delivery

variable {m} {connections} {x} {topic} {message} {y : Bytes} {entry : SessionEntry}
  {lwt : Publish} {reason : DisconnectReason} {effects : List Effect}

/-- What a last will is created with. -/
theorem lastWillOf_eq_some (h : m.lastWillOf x = some lwt) :
    Announced lwt ∧ lwt.retain = false := by
  obtain ⟨entry, -, hwill⟩ := Option.bind_eq_some_iff.mp h
  obtain ⟨connect, -, rfl⟩ := Option.map_eq_some_iff.mp hwill
  exact ⟨announced_create _ _ _ _ _ _, Publish.retain_create _ _ _ _ _ _⟩

/-- How the end of a client with a last will returns. -/
theorem perform_ungraceful_of_some (h : m.lastWillOf x = some lwt) :
    (∃ m', m.perform connections (.clientDisconnectedUngracefully x reason) =
        some (.ok (effects, m'))) ↔
      ∃ p' m', (m.remove x).publish connections lwt = .ok (effects, p', m') := by
  obtain ⟨entry, hentry, hwill⟩ := Option.bind_eq_some_iff.mp h
  simp only [perform, Option.some.injEq, clientDisconnectedUngracefully_eq_ok_iff]
  constructor
  · rintro ⟨m', ⟨entry', lwt', p, hentry', hwill', hpublish⟩ | ⟨entry', hentry', hnone, -⟩ |
      ⟨hnone, -⟩⟩
    · cases hentry.symm.trans hentry'
      cases hwill.symm.trans hwill'
      exact ⟨p, m', hpublish⟩
    · cases hentry.symm.trans hentry'
      cases hwill.symm.trans hnone
    · cases hentry.symm.trans hnone
  · rintro ⟨p', m', hpublish⟩
    exact ⟨m', Or.inl ⟨entry, lwt, p', hentry, hwill, hpublish⟩⟩

/-- Without a last will the end of a client has no effect. -/
theorem perform_ungraceful_of_none (connections : Connections) (reason : DisconnectReason)
    (h : m.lastWillOf x = none) :
    ∃ m', m.perform connections (.clientDisconnectedUngracefully x reason) =
      some (.ok ([], m')) := by
  cases hentry : m.sessions.lookup x with
  | none =>
      exact ⟨m, congrArg some (clientDisconnectedUngracefully_eq_ok_iff.mpr
        (Or.inr (Or.inr ⟨hentry, rfl, rfl⟩)))⟩
  | some entry =>
      rw [lastWillOf, hentry, Option.bind_some] at h
      exact ⟨_, congrArg some (clientDisconnectedUngracefully_eq_ok_iff.mpr
        (Or.inr (Or.inl ⟨entry, hentry, h, rfl, rfl⟩)))⟩

/-- The other sessions stay when that of a client is removed. -/
theorem lookup_remove_iff : (m.remove x).sessions.lookup y = some entry ↔
    y ≠ x ∧ m.sessions.lookup y = some entry := by
  rw [sessions_remove, Table.lookup_erase]
  split
  · rename_i hyx
    simp [hyx]
  · rename_i hyx
    simp [hyx]

/-- Publishing a last will returns exactly if it is deliverable. -/
theorem exists_publish_iff (h : m.lastWillOf x = some lwt) :
    (∃ effects p' m', (m.remove x).publish connections lwt = .ok (effects, p', m')) ↔
      m.LastWillDeliverable connections x := by
  have hiff {effects : List Effect} :
      (∃ p' m', (m.remove x).publish connections lwt = .ok (effects, p', m')) ↔ _ :=
    publish_eq_ok_iff (lastWillOf_eq_some h).1
  constructor
  · rintro ⟨effects, hpublish⟩ lwt' y q entry hlwt ⟨hne, hentry, hconnected⟩ hmem
    cases h.symm.trans hlwt
    exact (hiff.mp hpublish).1 (y, q) hmem entry (lookup_remove_iff.mpr ⟨hne, hentry⟩) hconnected
  · intro hdeliverable
    refine ⟨_, hiff.mpr ⟨?_, rfl⟩⟩
    rintro ⟨y, q⟩ hmem entry hentry hconnected
    obtain ⟨hne, hentry⟩ := lookup_remove_iff.mp hentry
    exact hdeliverable lwt y q entry h ⟨hne, hentry, hconnected⟩ hmem

/-- What another client is sent of a last will. -/
theorem publishesTo_of_lastWill (h : m.lastWillOf x = some lwt)
    (hperform : ∃ m', m.perform connections (.clientDisconnectedUngracefully x reason) =
      some (.ok (effects, m')))
    (hother : m.OtherConnected connections x y entry) {q : QoS}
    (hmem : (y, q) ∈ m.topicSubscriptions.resolveSubscribers lwt) :
    publishesTo y effects = if q = .reserved then [] else [outgoing lwt entry.session q] :=
  publishesTo_of_resolved (m := m.remove x) (lookup_remove_iff.mpr ⟨hother.1, hother.2.1⟩)
    hother.2.2 (lastWillOf_eq_some h).1 ((perform_ungraceful_of_some h).mp hperform) hmem

/-- A client that is sent a last will is resolved as its subscriber. -/
theorem exists_resolved_of_sent (h : m.lastWillOf x = some lwt)
    (hperform : ∃ m', m.perform connections (.clientDisconnectedUngracefully x reason) =
      some (.ok (effects, m')))
    (hsent : publishesTo y effects ≠ []) :
    ∃ q, (y, q) ∈ m.topicSubscriptions.resolveSubscribers lwt := by
  by_contra hnone
  apply hsent
  have hkeys : y ∉ ((m.remove x).topicSubscriptions.resolveSubscribers lwt).map Prod.fst := by
    intro hkey
    obtain ⟨⟨y', q⟩, hmem, rfl⟩ := List.mem_map.mp hkey
    exact hnone ⟨q, hmem⟩
  have hpublish := (perform_ungraceful_of_some h).mp hperform
  rw [((publish_eq_ok_iff (lastWillOf_eq_some h).1).mp hpublish).2, publishesTo_publish,
    publishesTo_flatMap_of_not_mem hkeys]

/-- A client that is sent a last will as it should be shows what the session has kept. -/
theorem expected_of_sent
    (hperform : ∃ m', m.perform connections (.clientDisconnectedUngracefully x reason) =
      some (.ok (effects, m')))
    (hother : m.OtherConnected connections x y entry) {out : Publish}
    (hout : publishesTo y effects = [out]) (htopic : out.topic = topic)
    (hmessage : out.applicationMessage = message)
    (hlevel : IsGreatest (m.topicSubscriptions.matchingQos y topic) out.qos) :
    m.KeepsLastWill x topic message ∧ .reserved ∉ m.topicSubscriptions.matchingQos y topic := by
  cases hlwt : m.lastWillOf x with
  | none =>
      obtain ⟨m', hnothing⟩ := perform_ungraceful_of_none connections reason hlwt
      obtain ⟨m'', hsame⟩ := hperform
      cases hnothing.symm.trans hsame
      cases hout
  | some lwt =>
      obtain ⟨q, hmem⟩ := exists_resolved_of_sent (y := y) hlwt hperform (by simp [hout])
      have hsent := publishesTo_of_lastWill hlwt hperform hother hmem
      rw [hout] at hsent
      split at hsent
      · cases hsent
      · rename_i hq
        cases hsent
        have hdeliverable : m.LastWillDeliverable connections x := by
          obtain ⟨p', m', hpublish⟩ := (perform_ungraceful_of_some hlwt).mp hperform
          exact (exists_publish_iff hlwt).mp ⟨_, p', m', hpublish⟩
        have hold : lwt.qos ≠ .reserved :=
          ((hdeliverable lwt y q entry hlwt hother hmem).resolve_left hq).1
        have hfacts := outgoing_facts (lastWillOf_eq_some hlwt).1 hold hq entry.session
        refine ⟨⟨lwt, hlwt, hfacts.topic.symm.trans htopic,
          hfacts.applicationMessage.symm.trans hmessage⟩, ?_⟩
        intro hreserved
        have hle := hlevel.2 hreserved
        rw [hfacts.level] at hle
        exact hq (le_antisymm (le_reserved q) hle)

/-- When the other clients are sent a last will. -/
theorem sendsLastWill_iff (m : SessionManager) (connections : Connections) (x topic message : Bytes)
    (reason : DisconnectReason) :
    m.SendsLastWill connections x topic message reason ↔
      m.LastWillDeliverable connections x ∧
        m.LastWillExpected connections x topic message := by
  constructor
  · rintro ⟨effects, m', hperform, hothers⟩
    refine ⟨?_, ?_⟩
    · intro lwt y q entry hlwt
      obtain ⟨p', m'', hpublish⟩ := (perform_ungraceful_of_some hlwt).mp ⟨m', hperform⟩
      exact (exists_publish_iff hlwt).mp ⟨_, p', m'', hpublish⟩ lwt y q entry hlwt
    · intro y entry hother hinterested
      obtain ⟨out, hout, htopic, hmessage, -, hlevel⟩ := hothers y entry hother hinterested
      exact expected_of_sent ⟨m', hperform⟩ hother hout htopic hmessage hlevel
  · rintro ⟨hdeliverable, hexpected⟩
    cases hlwt : m.lastWillOf x with
    | none =>
        obtain ⟨m', hperform⟩ := perform_ungraceful_of_none connections reason hlwt
        refine ⟨[], m', hperform, ?_⟩
        intro y entry hother hinterested
        obtain ⟨⟨lwt, hsome, -⟩, -⟩ := hexpected y entry hother hinterested
        cases hlwt.symm.trans hsome
    | some lwt =>
        obtain ⟨effects, hpublish⟩ := (exists_publish_iff hlwt).mpr hdeliverable
        have hreturns : ∃ m', m.perform connections (.clientDisconnectedUngracefully x reason) =
            some (.ok (effects, m')) := (perform_ungraceful_of_some hlwt).mpr hpublish
        obtain ⟨m', hperform⟩ := hreturns
        refine ⟨effects, m', hperform, ?_⟩
        intro y entry hother hinterested
        obtain ⟨⟨lwt', hsame, rfl, rfl⟩, hreserved⟩ := hexpected y entry hother hinterested
        cases hlwt.symm.trans hsame
        obtain ⟨q, hq, -⟩ := hinterested
        obtain ⟨q', hmem⟩ := exists_mem_resolveSubscribers hq
        have hgreatest := TopicSubscriptions.mem_resolveSubscribers_iff.mp hmem
        have hne : q' ≠ .reserved := by
          rintro rfl
          exact hreserved hgreatest.1
        have hold : lwt.qos ≠ .reserved :=
          ((hdeliverable lwt y q' entry hlwt hother hmem).resolve_left hne).1
        obtain ⟨hannounced, hretain⟩ := lastWillOf_eq_some hlwt
        have hfacts := outgoing_facts hannounced hold hne entry.session
        have hsent := publishesTo_of_lastWill hlwt ⟨m', hperform⟩ hother hmem
        rw [if_neg hne] at hsent
        refine ⟨_, hsent, hfacts.topic, hfacts.applicationMessage,
          (retain_outgoing hannounced hold hne entry.session).trans hretain, ?_⟩
        rw [hfacts.level]
        exact hgreatest

end Delivery

/-! ## From CONNECT to the end of the client -/

/-- The packet container of a CONNECT. -/
def connectContainer (connect : Connect) : PacketContainer :=
  ⟨connect.clientId, .connect connect, .clientDisconnect⟩

/-- The dispatcher handles a CONNECT, and no assertion fails. -/
def HandlesConnect (m : SessionManager) (connections : Connections) (k : ConnectionId)
    (connect : Connect) : Prop :=
  ∃ event effects m', handlePacketReceived (connectContainer connect) k = .ok event ∧
    m.perform connections event = some (.ok (effects, m'))

/-- A state after a client has connected, as long as its session has not been ended. -/
structure Later (start : SessionManager) (connections : Connections) (k : ConnectionId)
    (connect : Connect) (steps : List ManagerStep) (m : SessionManager) : Prop where
  run : ∃ m', start.perform connections (.clientConnected connect k) = some (.ok ([], m')) ∧
    machine.Run (some m') steps (some m)
  stays : ∀ step ∈ steps, ∀ s, step.before = some s →
    ¬ s.Ends step.event.1 connect.clientId step.event.2

section Connecting

variable {m m' start : SessionManager} {connections : Connections} {k : ConnectionId}
  {connect : Connect} {steps : List ManagerStep} {x : Bytes} {event : Event}
  {effects : List Effect}

/-- A session that is not ended keeps its profile. -/
theorem profile_of_stays {profile : Profile} (hprofile : m.profile x = some profile)
    (hstays : ¬ m.Ends connections x event)
    (h : m.perform connections event = some (.ok (effects, m'))) : m'.profile x = some profile := by
  generalize hafter : m'.profile x = after
  have hfate : Fate m connections event x after := hafter ▸ fate_of_perform h
  cases hfate with
  | same => exact hprofile
  | removed hends => exact absurd hends hstays
  | created connect' k' he hx hfree => cases hfree.symm.trans hprofile

/-- The session of a client that has connected keeps the profile that it was created with. -/
theorem profile_of_later (hconnection : connections k = some (some connect.clientId))
    (hfree : start.sessions.lookup connect.clientId = none)
    (h : Later start connections k connect steps m) :
    m.profile connect.clientId = some (createdProfile connect k) := by
  obtain ⟨m', hconnected, hrun⟩ := h.run
  have hstart : m'.profile connect.clientId = some (createdProfile connect k) :=
    profile_of_connected hconnected hconnection (Option.map_eq_none_iff.mpr hfree)
  refine hrun.alive_invariant (fun _ => rfl)
    (fun step => ∀ s, step.before = some s → ¬ s.Ends step.event.1 connect.clientId step.event.2)
    (fun _ t => t.profile connect.clientId = some (createdProfile connect k)) hstart ?_ h.stays
  intro pre t e o u _ ht hstep hstays
  obtain ⟨effects, hperform, -⟩ := Machine.ofFallible_step_alive_iff.mp hstep
  exact profile_of_stays ht (hstays t rfl) hperform

/-- A session that keeps the profile of its CONNECT keeps the last will. -/
theorem lastWillOf_of_profile (h : m.profile x = some (createdProfile connect k)) :
    m.lastWillOf x = (MqttClientSession.clientConnected 0 connect).lastWill := by
  obtain ⟨entry, hentry, hprofile⟩ := Option.map_eq_some_iff.mp h
  have hlwt : entry.session.lwtMessage =
      (MqttClientSession.clientConnected 0 connect).lwtMessage :=
    congrArg Profile.lwtMessage hprofile
  rw [lastWillOf, hentry, Option.bind_some, MqttClientSession.lastWill,
    MqttClientSession.lastWill, hlwt]

/-- The dispatcher handles a CONNECT with a last will exactly if the last will is not to be
retained. -/
theorem handlesConnect_iff (hwill : connect.containsLastWill = true)
    (hconnected : ∃ m', m.perform connections (.clientConnected connect k) = some (.ok ([], m'))) :
    m.HandlesConnect connections k connect ↔ connect.retainLastWill = false := by
  have hevent {event : Event} :
      handlePacketReceived (connectContainer connect) k = .ok event ↔
        connect.retainLastWill = false ∧ event = .clientConnected connect k := by
    simp only [handlePacketReceived, connectContainer, assert_bind_eq_ok_iff, hwill,
      Bool.not_true, Bool.false_or, Bool.not_eq_true', pure, Except.pure, Except.ok.injEq]
    rw [eq_comm (a := event)]
  constructor
  · rintro ⟨event, effects, m', hhandled, -⟩
    exact (hevent.mp hhandled).1
  · intro hretain
    obtain ⟨m', hperform⟩ := hconnected
    exact ⟨_, [], m', hevent.mpr ⟨hretain, rfl⟩, hperform⟩

end Connecting

section Frames

variable {buffer : Bytes} {frame : Frame} {connect : Connect} {w : ConnectFields}
  {topic message : Bytes}

/-- A CONNECT that has been decoded from a frame with a last will. -/
theorem lastWill_of_decoded {remainingLength : UInt32} (hwill : w.lastWill = some (topic, message))
    (hconnect : connect = w.decoded remainingLength) :
    connect.containsLastWill = true ∧
      (MqttClientSession.clientConnected 0 connect).lastWill =
        some (.create false connect.lastWillQos false (cString topic) 0x0000 message) := by
  have hflag : connect.containsLastWill = true := by
    rw [hconnect, Connect.containsLastWill]
    exact w.lastWill_present.symm.trans (by rw [hwill, Option.isSome_some])
  refine ⟨hflag, ?_⟩
  obtain ⟨lwt, hlwt⟩ := Option.isSome_iff_exists.mp
    ((MqttClientSession.lastWill_isSome_iff 0 connect).mpr hflag)
  obtain ⟨hflag', rfl⟩ := MqttClientSession.lastWill_eq_some hlwt
  have htopic : connect.lastWillTopic hflag' = cString topic := by
    subst hconnect
    simp [Connect.lastWillTopic, ConnectFields.decoded, Connect.create, hwill]
  have hmessage : connect.lastWillMessage hflag' = message := by
    subst hconnect
    simp [Connect.lastWillMessage, ConnectFields.decoded, Connect.create, hwill]
  rw [hlwt, htopic, hmessage]

/-- For which CONNECT frames, and in which states, a last will can be published: the flag to
retain it is clear, it is deliverable, and where it is expected the session has kept it.  A session
that is created for the CONNECT keeps its last will, unless there is a NUL in the topic. -/
theorem lastWill_iff (hend : frame.endPos ≤ buffer.length)
    (hdecode : decodeConnect buffer frame = .ok (.connect connect))
    (hbody : frame.body buffer = w.bytes) (hwill : w.lastWill = some (topic, message))
    {start m : SessionManager} {connections connections' : Connections} {k : ConnectionId}
    (hauthenticated : connections k = some (some connect.clientId)) {steps : List ManagerStep}
    (hlater : Later start connections k connect steps m) (reason : DisconnectReason) :
    (start.HandlesConnect connections k connect ∧
        m.SendsLastWill connections' connect.clientId topic message reason ↔
      connect.retainLastWill = false ∧ m.LastWillDeliverable connections' connect.clientId ∧
        m.LastWillExpected connections' connect.clientId topic message) ∧
    (start.sessions.lookup connect.clientId = none →
      m.lastWillOf connect.clientId =
          some (.create false connect.lastWillQos false (cString topic) 0x0000 message) ∧
        (m.KeepsLastWill connect.clientId topic message ↔ 0x00 ∉ topic)) := by
  obtain ⟨-, -, w', hbody', hpacket⟩ := (decodeConnect_eq_ok_iff hend).mp hdecode
  have hsame : w' = w := ConnectFields.bytes_injective (hbody'.symm.trans hbody)
  subst hsame
  have hconnect : connect = w'.decoded (UInt32.ofNat frame.remainingLength) :=
    MqttPacket.connect.inj hpacket
  obtain ⟨hflag, hlastWill⟩ := lastWill_of_decoded hwill hconnect
  refine ⟨?_, ?_⟩
  · obtain ⟨m', hconnected, -⟩ := hlater.run
    rw [handlesConnect_iff hflag ⟨m', hconnected⟩, sendsLastWill_iff]
  · intro hfree
    have hkept := lastWillOf_of_profile (profile_of_later hauthenticated hfree hlater)
    rw [hlastWill] at hkept
    refine ⟨hkept, ?_⟩
    rw [← cString_eq_self_iff]
    constructor
    · rintro ⟨lwt, hlwt, htopic, -⟩
      cases hkept.symm.trans hlwt
      exact htopic
    · intro htopic
      exact ⟨_, hkept, htopic, rfl⟩

end Frames

/-! ### A client with a last will and a subscriber -/

/-- The body of a CONNECT of the client {lit}`x` with the last will {lit}`b` for the topic
{lit}`a`. -/
def willBytes (flags : UInt8) : Bytes :=
  [0x00, 0x01, 0x4D, 0x04, flags, 0x00, 0x3C, 0x00, 0x01, 0x78, 0x00, 0x01, 0x61, 0x00, 0x01, 0x62]

/-- The fields of a CONNECT with a last will. -/
def willFields (flags : UInt8) (hwill : containsLastWillFlag flags = true)
    (husername : ((flags &&& 0x80) == 0x80) = false)
    (hpassword : ((flags &&& 0x40) == 0x40) = false) : ConnectFields where
  protocolName := [0x4D]
  protocolLevel := 0x04
  connectFlags := flags
  keepAliveSecs := 60
  clientId := [0x78]
  lastWill := some ([0x61], [0x62])
  username := none
  password := none
  named := List.cons_ne_nil _ _
  protocolName_short := by decide
  clientId_short := by decide
  lastWill_present := hwill.symm
  lastWill_short := by simp
  username_present := husername.symm
  username_short := by simp
  password_present := hpassword.symm
  password_short := by simp

/-- The packet that is decoded from it. -/
def connectWith (flags : UInt8) : Connect :=
  .create 16 [0x4D] 0x04 flags 60 [0x78] [0x61] [0x62] [] []

theorem body_willBytes {flags : UInt8} (hwill : containsLastWillFlag flags = true)
    (husername : ((flags &&& 0x80) == 0x80) = false)
    (hpassword : ((flags &&& 0x40) == 0x40) = false) :
    (connectFrame 16).body (willBytes flags) =
      (willFields flags hwill husername hpassword).bytes := by
  have hone : uint16Bytes (UInt16.ofNat 1) = [0x00, 0x01] := rfl
  have hkeepAlive : uint16Bytes 60 = [0x00, 0x3C] := rfl
  have hstring (c : UInt8) : stringBytes [c] = [0x00, 0x01, c] := congrArg (· ++ [c]) hone
  simp only [ConnectFields.bytes, ConnectFields.payload, willFields, lastWillBytes,
    optionalBytes, Option.elim_some, Option.elim_none, hstring, hkeepAlive]
  rfl

theorem decode_willBytes {flags : UInt8} (hwill : containsLastWillFlag flags = true)
    (husername : ((flags &&& 0x80) == 0x80) = false)
    (hpassword : ((flags &&& 0x40) == 0x40) = false) :
    decodeConnect (willBytes flags) (connectFrame 16) = .ok (.connect (connectWith flags)) :=
  (decodeConnect_eq_ok_iff (Nat.le_refl 16)).mpr
    ⟨rfl, rfl, _, body_willBytes hwill husername hpassword, rfl⟩

/-- The client {lit}`y` has subscribed to the topic {lit}`a`. -/
def subscribed : SessionManager :=
  { create 3 with
    topicSubscriptions :=
      TopicSubscriptions.subscribeAll [([0x79], TopicSubscriptions.sampleSubscribe)]
    sessions := Table.empty.insert [0x79]
      ⟨1, MqttClientSession.clientConnected 3 (sampleConnect [0x79])⟩ }

/-- The client {lit}`x` has connected after {lit}`y` has subscribed. -/
def connectedWith (flags : UInt8) : SessionManager :=
  { subscribed with
    sessions := subscribed.sessions.insert [0x78]
      ⟨0, MqttClientSession.clientConnected 3 (connectWith flags)⟩ }

theorem later_connectedWith (flags : UInt8) :
    Later subscribed sampleConnections 0 (connectWith flags) [] (connectedWith flags) where
  run := ⟨_, rfl, Machine.Run.nil _⟩
  stays _ hstep := absurd hstep List.not_mem_nil

/-- The client {lit}`y` has subscribed to the topic {lit}`b` as well. -/
def subscribedTwice : SessionManager :=
  { subscribed with
    topicSubscriptions := subscribed.topicSubscriptions.emplace ⟨[0x62], .atLeastOnce, [0x79]⟩ }

/-- The client {lit}`y` unsubscribes from the topic {lit}`b` after {lit}`x` has connected. -/
theorem later_subscribedTwice (flags : UInt8) : ∃ x,
    x.event = (sampleConnections, .clientUnsubscribed [0x79] ⟨5, 1, [[0x62]]⟩) ∧
      Later subscribedTwice sampleConnections 0 (connectWith flags) [x] (connectedWith flags) := by
  refine ⟨⟨_, _, _, _⟩, rfl, ⟨_, rfl, Machine.Run.single rfl⟩, ?_⟩
  intro x hx s hs hends
  cases List.mem_singleton.mp hx
  cases hs
  obtain ⟨entry, hentry, hconnected, -⟩ := hends
  cases hentry
  cases hconnected

/-- The only other client is {lit}`y`. -/
theorem other_connectedWith {flags : UInt8} {y : Bytes} {entry : SessionEntry}
    (h : (connectedWith flags).OtherConnected sampleConnections [0x78] y entry) :
    y = [0x79] ∧ entry = ⟨1, MqttClientSession.clientConnected 3 (sampleConnect [0x79])⟩ := by
  obtain ⟨hne, hentry, -⟩ := h
  have hlookup : subscribed.sessions.lookup y = some entry := by
    rw [← hentry]
    exact (Table.lookup_insert_of_ne _ _ hne).symm
  have hy : y = [0x79] := by
    by_contra hother
    have hnone : subscribed.sessions.lookup y = none :=
      Table.lookup_insert_of_ne Table.empty _ hother
    cases hlookup.symm.trans hnone
  subst hy
  exact ⟨rfl, (Option.some.inj hlookup).symm⟩

/-- The last will is sent although there is an event between the CONNECT and the loss of the
connection. -/
theorem lastWill_connectedWith : ∃ x,
    x.event = (sampleConnections, .clientUnsubscribed [0x79] ⟨5, 1, [[0x62]]⟩) ∧
    Later subscribedTwice sampleConnections 0 (connectWith 0x06) [x] (connectedWith 0x06) ∧
      subscribedTwice.HandlesConnect sampleConnections 0 (connectWith 0x06) ∧
        (connectedWith 0x06).SendsLastWill sampleConnections [0x78] [0x61] [0x62]
          .networkOrServerFailure := by
  have hend : (connectFrame 16).endPos ≤ (willBytes 0x06).length := Nat.le_refl 16
  obtain ⟨x, hevent, hlater⟩ := later_subscribedTwice 0x06
  refine ⟨x, hevent, hlater, (lastWill_iff hend (decode_willBytes rfl rfl rfl)
    (body_willBytes rfl rfl rfl) rfl rfl hlater .networkOrServerFailure).1.mpr ⟨rfl, ?_, ?_⟩⟩
  · intro lwt y q entry hlwt hother _
    obtain ⟨rfl, rfl⟩ := other_connectedWith hother
    have hqos : lwt.qos ≠ .reserved := by
      cases hlwt
      decide
    exact Or.inr ⟨hqos, Or.inr rfl⟩
  · intro y entry hother _
    obtain ⟨rfl, rfl⟩ := other_connectedWith hother
    refine ⟨⟨_, rfl, rfl, rfl⟩, ?_⟩
    rintro ⟨s, hs, -, -, hreserved⟩
    have hall : ∀ s ∈ (connectedWith 0x06).topicSubscriptions.subscriptions,
        s.maximumQos ≠ .reserved := by
      decide
    exact hall s hs hreserved

/-- A last will that is to be retained, and one with the reserved quality of service. -/
theorem not_lastWill_connectedWith :
    (decodeConnect (willBytes 0x26) (connectFrame 16) = .ok (.connect (connectWith 0x26)) ∧
      ¬ subscribed.HandlesConnect sampleConnections 0 (connectWith 0x26)) ∧
    (decodeConnect (willBytes 0x1E) (connectFrame 16) = .ok (.connect (connectWith 0x1E)) ∧
      subscribed.HandlesConnect sampleConnections 0 (connectWith 0x1E) ∧
      Later subscribed sampleConnections 0 (connectWith 0x1E) [] (connectedWith 0x1E) ∧
      ¬ (connectedWith 0x1E).SendsLastWill sampleConnections [0x78] [0x61] [0x62]
        .networkOrServerFailure) := by
  refine ⟨⟨decode_willBytes rfl rfl rfl, ?_⟩, decode_willBytes rfl rfl rfl,
    (handlesConnect_iff rfl ⟨_, rfl⟩).mpr rfl, later_connectedWith 0x1E, ?_⟩
  · rw [handlesConnect_iff rfl ⟨_, rfl⟩]
    decide
  · rintro ⟨effects, m', hperform, -⟩
    have hfails : (connectedWith 0x1E).clientDisconnectedUngracefully sampleConnections [0x78]
        .networkOrServerFailure = .error .assertion := rfl
    have hresult := Option.some.inj hperform
    rw [hfails] at hresult
    cases hresult

end SessionManager

end Dispatch
end WallyIo
