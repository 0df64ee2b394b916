import WallyIo.Codec.PublishCodec
import WallyIo.Dispatch.ClientSession
import Mathlib.Data.List.TakeWhile

/-!
# From what is received to what is sent

A PUBLISH that has been received, or a last will, is one object that is handed to every
subscriber: it is sent itself with quality of service 0, copied otherwise, and kept as a
retained message.

Main results:

- Theorem {lit}`encoded_iff_fits` and {lit}`fits_iff`: which packets the encoder accepts.
- Theorem {lit}`Shared.facts` and {lit}`Transmitted.facts`: what all packets that stem
  from one source have in common.
- Theorem {lit}`emitted_iff`: when all packets that stem from a source are accepted by the
  decoder of the server.
-/

namespace WallyIo
namespace Dispatch

open Protocol Library Codec

/-! ## Packets that announce their length -/

/-- The length of the body that a PUBLISH would have with some quality of service. -/
def bodyLength (p : Publish) (qos : QoS) : Nat :=
  2 + p.topic.length + (if qos = .atMostOnce then 0 else 2) + p.applicationMessage.length

/-- The remaining length of a packet is that of its body, as far as 32 bits tell. -/
def Announced (p : Publish) : Prop :=
  p.remainingLength.toNat = bodyLength p p.qos % 2 ^ 32

theorem announced_create (dup : Bool) (qos : QoS) (retain : Bool) (topic : Bytes)
    (packetIdentifier : UInt16) (applicationMessage : Bytes) :
    Announced (.create dup qos retain topic packetIdentifier applicationMessage) := by
  rw [Announced, bodyLength, Publish.qos_create]
  simp only [Publish.create, UInt32.toNat_add, UInt32.toNat_ofNat']
  by_cases hqos : qos = .atMostOnce
  · rw [if_pos hqos, if_pos hqos]
    simp only [UInt32.reduceToNat]
    omega
  · rw [if_neg hqos, if_neg hqos]
    simp only [UInt32.reduceToNat]
    omega

variable {p p' : Publish} {qos : QoS}

/-- Assigning a quality of service adds or removes the length of a packet identifier. -/
theorem Announced.setQos (h : Announced p) (hset : p.setQos qos = .ok p')
    (hqos : qos ≠ .reserved) : Announced p' := by
  have hframe := Publish.setQos_frame hset
  have hlength : bodyLength p' p'.qos = bodyLength p qos := by
    rw [Publish.qos_of_setQos hset, bodyLength, bodyLength, hframe.1, hframe.2.2]
  rw [Announced, hlength]
  rw [Announced] at h
  unfold Publish.setQos at hset
  cases hold : p.qos with
  | reserved => simp [hold] at hset
  | atMostOnce =>
      simp only [hold, bodyLength, if_true] at h hset
      split at hset
      · rename_i hraised
        cases hset
        rw [bodyLength, if_neg (by rcases hraised with rfl | rfl <;> decide)]
        simp only [UInt32.toNat_add, h, UInt32.reduceToNat]
        omega
      · rename_i hsame
        cases hset
        have hzero : qos = .atMostOnce := by
          cases qos <;> simp_all
        rw [bodyLength, if_pos hzero]
        exact h
  | atLeastOnce | exactlyOnce =>
      simp only [hold, bodyLength, reduceCtorEq, if_false] at h hset
      split at hset
      · rename_i hlowered
        cases hset
        rw [bodyLength, if_pos hlowered]
        simp only [UInt32.toNat_sub, h, UInt32.reduceToNat]
        omega
      · rename_i hsame
        cases hset
        rw [bodyLength, if_neg hsame]
        exact h

/-- A packet is encoded if neither its topic nor its body is too long and it announces the
length of its body, one that is larger is not. -/
theorem encodable_publish_iff :
    Encodable (.publish p) ↔
      p.topic.length ≤ 65535 ∧ Announced p ∧ bodyLength p p.qos ≤ 268435455 := by
  constructor
  · intro h
    have hlength : p.remainingLength.toNat = bodyLength p p.qos :=
      h.announced.trans (length_bodyOf_publish p)
    have hallowed := le_maxAllowedPacketLength_iff.mp h.allowed
    rw [remainingLengthOf, hlength] at hallowed
    refine ⟨h.body, ?_, hallowed⟩
    rw [Announced]
    omega
  · rintro ⟨htopic, hannounced, hlength⟩
    have hvalue : p.remainingLength.toNat = bodyLength p p.qos := by
      rw [Announced] at hannounced
      omega
    refine ⟨htopic, ?_, ?_⟩
    · rw [le_maxAllowedPacketLength_iff, remainingLengthOf, hvalue]
      exact hlength
    · rw [remainingLengthOf, hvalue, length_bodyOf_publish, bodyLength]

theorem encoding_of_large (h : Announced p) (hlarge : 268435455 < bodyLength p p.qos)
    (hlength : bodyLength p p.qos ≤ 268435457) :
    ∀ bytes, encoding (.publish p) ≠ .ok bytes := by
  have hvalue : p.remainingLength.toNat = bodyLength p p.qos := by
    rw [Announced] at h
    omega
  have hgreater : maxAllowedPacketLength < remainingLengthOf (.publish p) := by
    rw [UInt32.lt_iff_toNat_lt, remainingLengthOf, hvalue]
    exact hlarge
  intro bytes hbytes
  rw [encoding, encode, encodeFixedHeader] at hbytes
  cases hput : (OutputIterator.start (totalLengthOf (.publish p))).put
      (typeAndFlagsOf (.publish p)) with
  | error failure =>
      rw [hput] at hbytes
      cases hbytes
  | ok it =>
      simp only [hput, bind, Except.bind, encodeRemainingLength_of_gt hgreater] at hbytes
      by_cases hroom : 5 ≤ it.room
      · simp [hroom] at hbytes
      · simp [hroom] at hbytes

/-- What does not concern the quality of service does not concern the length. -/
theorem Announced.setRetain (h : Announced p) (retain : Bool) :
    Announced (p.setRetain retain) := by
  rw [Announced, Publish.qos_setRetain]
  exact h

theorem Announced.setDup (h : Announced p) (dup : Bool) : Announced (p.setDup dup) := by
  rw [Announced, Publish.qos_setDup]
  exact h

theorem Announced.withNewPacketIdentifier (h : Announced p) (i : UInt16) :
    Announced (p.withNewPacketIdentifier i) := h

/-! ## Packets that become too long -/

/-- A packet has been received, and may be sent with some quality of service.  A packet identifier
that it has not had before makes it longer. -/
structure Fits (p : Publish) (qos : QoS) : Prop where
  encodable : Encodable (.publish p)
  length : bodyLength p qos ≤ 268435455

/-- What becomes of a packet that has been received is too long by two bytes at most. -/
theorem bodyLength_le (h : Encodable (.publish p)) (qos : QoS) :
    bodyLength p qos ≤ 268435457 := by
  obtain ⟨-, -, hlength⟩ := encodable_publish_iff.mp h
  rw [bodyLength] at hlength ⊢
  split
  · omega
  · omega

/-- Only a packet without a packet identifier becomes too long, and only if it is almost as long as
a packet can be. -/
theorem fits_iff (h : Encodable (.publish p)) :
    Fits p qos ↔
      (p.qos = .atMostOnce → qos ≠ .atMostOnce → p.remainingLength.toNat ≤ 268435453) := by
  have hvalue : p.remainingLength.toNat = bodyLength p p.qos :=
    h.announced.trans (length_bodyOf_publish p)
  obtain ⟨-, -, hlength⟩ := encodable_publish_iff.mp h
  constructor
  · rintro ⟨-, hfits⟩ hold hnew
    rw [hvalue, bodyLength, if_pos hold]
    rw [bodyLength, if_neg hnew] at hfits
    omega
  · intro hshort
    refine ⟨h, ?_⟩
    rw [hvalue] at hshort
    rw [bodyLength] at hshort hlength ⊢
    by_cases hnew : qos = .atMostOnce
    · rw [if_pos hnew]
      omega
    · rw [if_neg hnew]
      by_cases hold : p.qos = .atMostOnce
      · have hbound := hshort hold hnew
        rw [if_pos hold] at hbound
        omega
      · rw [if_neg hold] at hlength
        exact hlength

/-- With quality of service 2 a packet is as long as it can be. -/
theorem bodyLength_le_exactlyOnce (p : Publish) (qos : QoS) :
    bodyLength p qos ≤ bodyLength p .exactlyOnce := by
  rw [bodyLength, bodyLength]
  split
  · simp
  · simp

/-- A packet with another quality of service is as long as the former one would be with it. -/
theorem bodyLength_of_setQos (hset : p.setQos qos = .ok p') :
    bodyLength p' p'.qos = bodyLength p qos := by
  obtain ⟨htopic, -, hmessage⟩ := Publish.setQos_frame hset
  rw [Publish.qos_of_setQos hset, bodyLength, bodyLength, htopic, hmessage]

/-- The encoder accepts what fits. -/
theorem Fits.encodable_of_setQos (h : Fits p qos) (hset : p.setQos qos = .ok p')
    (hqos : qos ≠ .reserved) : Encodable (.publish p') := by
  obtain ⟨htopic, hannounced, -⟩ := encodable_publish_iff.mp h.encodable
  refine encodable_publish_iff.mpr ⟨?_, hannounced.setQos hset hqos, ?_⟩
  · rw [(Publish.setQos_frame hset).1]
    exact htopic
  · rw [bodyLength_of_setQos hset]
    exact h.length

/-- The encoder accepts a packet with another quality of service exactly if it fits. -/
theorem encoded_iff_fits (h : Encodable (.publish p)) (hset : p.setQos qos = .ok p')
    (hqos : qos ≠ .reserved) : (∃ bytes, encoding (.publish p') = .ok bytes) ↔ Fits p qos := by
  constructor
  · rintro ⟨bytes, hbytes⟩
    refine ⟨h, ?_⟩
    by_contra hlong
    rw [← bodyLength_of_setQos hset] at hlong
    have hbound : bodyLength p' p'.qos ≤ 268435457 := by
      rw [bodyLength_of_setQos hset]
      exact bodyLength_le h qos
    have hannounced := (encodable_publish_iff.mp h).2.1
    exact encoding_of_large (hannounced.setQos hset hqos) (Nat.lt_of_not_le hlong) hbound bytes
      hbytes
  · exact fun hfits => ⟨_, encoding_eq (hfits.encodable_of_setQos hset hqos)⟩

@[simp]
theorem bodyLength_withNewPacketIdentifier (p : Publish) (i : UInt16) (qos : QoS) :
    bodyLength (p.withNewPacketIdentifier i) qos = bodyLength p qos := rfl

/-- To the encoder one packet identifier is as good as another. -/
theorem encodable_withNewPacketIdentifier (h : Encodable (.publish p)) (i : UInt16) :
    Encodable (.publish (p.withNewPacketIdentifier i)) := by
  obtain ⟨htopic, hannounced, hlength⟩ := encodable_publish_iff.mp h
  exact encodable_publish_iff.mpr ⟨htopic, hannounced.withNewPacketIdentifier i, hlength⟩

theorem Fits.withNewPacketIdentifier (h : Fits p qos) (i : UInt16) :
    Fits (p.withNewPacketIdentifier i) qos :=
  ⟨encodable_withNewPacketIdentifier h.encodable i, h.length⟩

/-- A duplicate is as long as the packet itself. -/
theorem encodable_setDup (h : Encodable (.publish p)) (dup : Bool) :
    Encodable (.publish (p.setDup dup)) := by
  obtain ⟨htopic, hannounced, hlength⟩ := encodable_publish_iff.mp h
  refine encodable_publish_iff.mpr ⟨htopic, hannounced.setDup dup, ?_⟩
  rw [Publish.qos_setDup]
  exact hlength

/-! ## One object for all subscribers -/

/-- What may become of the object that is handed to the subscribers.  Its RETAIN flag is
cleared and set again, and it is changed when it is sent with quality of service 0. -/
inductive Shared (source : Publish) : Publish → Prop
  | source : Shared source source
  | retained {p : Publish} (h : Shared source p) (retain : Bool) :
      Shared source (p.setRetain retain)
  | lowered {p p' : Publish} (h : Shared source p) (hset : p.setQos .atMostOnce = .ok p') :
      Shared source p'

/-- The packets that are sent to a subscriber with some quality of service: the object
itself, a copy under a packet identifier, or the copy marked as a duplicate. -/
inductive Transmitted (source : Publish) : QoS → Publish → Prop
  | itself {p p' : Publish} (h : Shared source p) (hset : p.setQos .atMostOnce = .ok p') :
      Transmitted source .atMostOnce p'
  | copy {p p' : Publish} {qos : QoS} (h : Shared source p)
      (hqos : qos = .atLeastOnce ∨ qos = .exactlyOnce) (i : UInt16)
      (hset : (p.withNewPacketIdentifier i).setQos qos = .ok p') : Transmitted source qos p'
  | retry {p : Publish} (h : Transmitted source .exactlyOnce p) :
      Transmitted source .exactlyOnce (p.setDup true)

variable {source : Publish}

/-- What the object for all subscribers keeps of its source. -/
structure Shared.Facts (source p : Publish) : Prop where
  topic : p.topic = source.topic
  applicationMessage : p.applicationMessage = source.applicationMessage
  dup : p.dup = source.dup
  qos : p.qos = source.qos ∨ p.qos = .atMostOnce
  announced : Announced source → Announced p

theorem Shared.facts (h : Shared source p) : Shared.Facts source p := by
  induction h with
  | source => exact ⟨rfl, rfl, rfl, Or.inl rfl, id⟩
  | retained h retain ih =>
      refine ⟨ih.topic, ih.applicationMessage, ?_, ?_, ?_⟩
      · rw [Publish.dup_setRetain]
        exact ih.dup
      · rw [Publish.qos_setRetain]
        exact ih.qos
      · exact fun hsource => (ih.announced hsource).setRetain retain
  | lowered h hset ih =>
      rcases Publish.setQos_frame hset with ⟨htopic, -, hmessage⟩
      refine ⟨htopic.trans ih.topic, hmessage.trans ih.applicationMessage, ?_, ?_, ?_⟩
      · exact (Publish.flags_of_setQos hset).1.trans ih.dup
      · exact Or.inr (Publish.qos_of_setQos hset)
      · exact fun hsource => (ih.announced hsource).setQos hset (by decide)

/-- What stems from a packet that stems from a source stems from this source. -/
theorem Shared.trans (h : Shared source p) (h' : Shared p p') : Shared source p' := by
  induction h' with
  | source => exact h
  | retained _ retain ih => exact ih.retained retain
  | lowered _ hset ih => exact ih.lowered hset

/-- What a packet that is sent keeps of its source. -/
structure Transmitted.Facts (source : Publish) (qos : QoS) (p : Publish) : Prop where
  topic : p.topic = source.topic
  applicationMessage : p.applicationMessage = source.applicationMessage
  level : p.qos = qos
  dup : qos = .atMostOnce → p.dup = source.dup
  announced : Announced source → Announced p

theorem Transmitted.facts (h : Transmitted source qos p) : Transmitted.Facts source qos p := by
  induction h with
  | itself h hset =>
      have hshared := h.facts
      rcases Publish.setQos_frame hset with ⟨htopic, -, hmessage⟩
      refine ⟨htopic.trans hshared.topic, hmessage.trans hshared.applicationMessage, ?_, ?_, ?_⟩
      · exact Publish.qos_of_setQos hset
      · exact fun _ => (Publish.flags_of_setQos hset).1.trans hshared.dup
      · exact fun hsource => (hshared.announced hsource).setQos hset (by decide)
  | copy h hqos i hset =>
      have hshared := h.facts
      rcases Publish.setQos_frame hset with ⟨htopic, -, hmessage⟩
      refine ⟨htopic.trans hshared.topic, hmessage.trans hshared.applicationMessage, ?_, ?_, ?_⟩
      · exact Publish.qos_of_setQos hset
      · intro hzero
        rcases hqos with rfl | rfl <;> cases hzero
      · intro hsource
        have hcopied := (hshared.announced hsource).withNewPacketIdentifier i
        apply hcopied.setQos hset
        rcases hqos with rfl | rfl <;> decide
  | retry h ih =>
      refine ⟨ih.topic, ih.applicationMessage, ?_, nofun, ?_⟩
      · rw [Publish.qos_setDup]
        exact ih.level
      · exact fun hsource => (ih.announced hsource).setDup true

/-! ## What the decoder of the server accepts -/

/-- The packets that the server sends on: those that it has decoded, of a length that a
frame reader delivers, and the last wills of the CONNECT packets that it has decoded. -/
inductive Source : Publish → Prop
  | received {buffer : Bytes} {frame : Frame} {p : Publish}
      (hend : frame.endPos ≤ buffer.length) (hlength : frame.remainingLength ≤ 268435455)
      (h : decodePublish buffer frame = .ok (.publish p)) : Source p
  | lastWill {buffer : Bytes} {frame : Frame} {connect : Connect} {p : Publish}
      (hend : frame.endPos ≤ buffer.length)
      (h : decodeConnect buffer frame = .ok (.connect connect)) (maxRetries : Nat)
      (hwill : (MqttClientSession.clientConnected maxRetries connect).lastWill = some p) :
      Source p

/-- Whatever is sent of a source with some quality of service is encoded, and accepted by
the decoder with the same topic and message. -/
structure Emitted (source : Publish) (qos : QoS) : Prop where
  sends : ∀ p, Shared source p → (∃ p', p.setQos qos = .ok p') ∧
    ∀ i, ∃ p', (p.withNewPacketIdentifier i).setQos qos = .ok p'
  accepted : ∀ p, Transmitted source qos p → ∃ bytes, encoding (.publish p) = .ok bytes ∧
    AcceptedAs source.topic source.applicationMessage bytes

/-- The condition on the source. -/
structure Sendable (source : Publish) (qos : QoS) : Prop where
  topic : WellFormedTopicName source.topic
  notReserved : source.qos ≠ .reserved
  notDuplicate : source.dup = true → qos ≠ .atMostOnce
  length : bodyLength source qos ≤ 268435455

/-- A last will that has been decoded is short. -/
theorem decodeLastWill_short {flags : UInt8} {buffer topic message : Bytes}
    {pos pos' endPos : Nat} (hend : endPos ≤ buffer.length)
    (h : decodeLastWill flags buffer pos endPos = .ok (pos', topic, message)) :
    topic.length ≤ 65535 ∧ message.length ≤ 65535 := by
  unfold decodeLastWill at h
  split at h
  · simp only [bind_eq_ok_iff, throwIf_eq_ok_iff] at h
    rcases h with ⟨⟨pos₁, topic'⟩, htopic, ⟨pos₂, length⟩, -, -, -, message', hmessage, hresult⟩
    cases hresult
    refine ⟨short_of_decodeUtf8String hend htopic, ?_⟩
    unfold readBytes at hmessage
    split at hmessage
    · cases hmessage
      have hlt := length.toNat_lt
      exact Nat.le_trans (List.length_take_le _ _) (Nat.le_of_lt_succ hlt)
    · cases hmessage
  · cases h
    exact ⟨Nat.zero_le _, Nat.zero_le _⟩

/-- The packet that publishes a last will that has been decoded is short. -/
theorem lastWill_short {buffer : Bytes} {frame : Frame} {connect : Connect} {maxRetries : Nat}
    (hend : frame.endPos ≤ buffer.length)
    (h : decodeConnect buffer frame = .ok (.connect connect))
    (hwill : (MqttClientSession.clientConnected maxRetries connect).lastWill = some p) :
    p.topic.length ≤ 65535 ∧ p.applicationMessage.length ≤ 65535 ∧ 0x00 ∉ p.topic := by
  simp only [decodeConnect, decodeConnectPayload, bind_eq_ok_iff] at h
  rcases h with ⟨_, _, _, _, _, _, _, _, _, _, ⟨pos, topic, message⟩, hlastWill, _, _, _, _, _, _,
    hresult⟩
  rcases decodeLastWill_short hend hlastWill with ⟨htopic, hmessage⟩
  cases hresult
  rcases MqttClientSession.lastWill_eq_some hwill with ⟨hpresent, rfl⟩
  refine ⟨Nat.le_trans (List.takeWhile_sublist _).length_le htopic, hmessage, ?_⟩
  intro hnull
  have hnonzero := List.mem_takeWhile_imp hnull
  simp at hnonzero

/-- What is known of every source. -/
theorem Source.facts (h : Source source) :
    source.topic.length ≤ 65535 ∧ Announced source ∧
      ∀ qos, bodyLength source qos ≤ 268435457 := by
  cases h with
  | received hend hlength h =>
      obtain ⟨htopic, hannounced, hallowed⟩ :=
        encodable_publish_iff.mp (encodable_of_decodePublish hend hlength h)
      refine ⟨htopic, hannounced, ?_⟩
      intro qos
      rw [bodyLength] at hallowed ⊢
      split
      · omega
      · omega
  | lastWill hend h maxRetries hwill =>
      rcases lastWill_short hend h hwill with ⟨htopic, hmessage, -⟩
      rcases MqttClientSession.lastWill_eq_some hwill with ⟨hpresent, rfl⟩
      refine ⟨htopic, announced_create _ _ _ _ _ _, ?_⟩
      intro qos
      rw [bodyLength]
      split
      · omega
      · omega

/-- Some packet is sent if one can be sent at all. -/
theorem exists_transmitted (h : Emitted source qos) (hqos : qos ≠ .reserved) :
    ∃ p, Transmitted source qos p := by
  rcases h.sends source .source with ⟨⟨p, hitself⟩, hcopy⟩
  rcases hcopy 0 with ⟨p', hcopy⟩
  cases qos with
  | reserved => exact absurd rfl hqos
  | atMostOnce => exact ⟨p, .itself .source hitself⟩
  | atLeastOnce => exact ⟨p', .copy .source (Or.inl rfl) 0 hcopy⟩
  | exactlyOnce => exact ⟨p', .copy .source (Or.inr rfl) 0 hcopy⟩

/-- A packet that is sent has the length that its source has with its quality of
service. -/
theorem Transmitted.Facts.bodyLength_eq (h : Transmitted.Facts source qos p) :
    bodyLength p p.qos = bodyLength source qos := by
  rw [bodyLength, bodyLength, h.level, h.topic, h.applicationMessage]

/-- What a sendable source makes is encoded and accepted. -/
theorem emitted_of_sendable (hsource : Source source) (hqos : qos ≠ .reserved)
    (h : Sendable source qos) : Emitted source qos := by
  rcases hsource.facts with ⟨htopic, hannounced, -⟩
  refine ⟨?_, ?_⟩
  · intro p hp
    have hreserved : p.qos ≠ .reserved := by
      rcases hp.facts.qos with hsame | hzero
      · rw [hsame]
        exact h.notReserved
      · rw [hzero]
        decide
    exact ⟨Publish.setQos_eq_ok hreserved qos,
      fun i => Publish.setQos_eq_ok (p := p.withNewPacketIdentifier i) hreserved qos⟩
  · intro p hp
    have hfacts := hp.facts
    have hp_topic : p.topic.length ≤ 65535 := by
      rw [hfacts.topic]
      exact htopic
    have hshort : bodyLength p p.qos ≤ 268435455 := by
      rw [hfacts.bodyLength_eq]
      exact h.length
    have hencodable := encodable_publish_iff.mpr
      ⟨hp_topic, hfacts.announced hannounced, hshort⟩
    refine ⟨_, encoding_eq hencodable, ?_⟩
    rw [← hfacts.topic, ← hfacts.applicationMessage, acceptedAs_iff hencodable, hfacts.level]
    refine ⟨?_, hqos, ?_⟩
    · intro hdup hzero
      rw [hfacts.dup hzero] at hdup
      exact h.notDuplicate hdup hzero
    · rw [hfacts.topic]
      exact h.topic

/-- All packets that stem from a source are accepted by the decoder of the server exactly if
its topic is well formed, its quality of service is not reserved, it is not a duplicate that
is sent with quality of service 0, and it does not become too long. -/
theorem emitted_iff (hsource : Source source) (hqos : qos ≠ .reserved) :
    Emitted source qos ↔ Sendable source qos := by
  rcases hsource.facts with ⟨htopic, hannounced, hlength⟩
  constructor
  · intro h
    rcases exists_transmitted h hqos with ⟨p, hp⟩
    have hfacts := hp.facts
    have hp_topic : p.topic.length ≤ 65535 := by
      rw [hfacts.topic]
      exact htopic
    rcases h.accepted p hp with ⟨bytes, hbytes, haccepted⟩
    have hshort : bodyLength p p.qos ≤ 268435455 := by
      by_contra hlong
      have hbound := hlength qos
      rw [← hfacts.bodyLength_eq] at hbound
      exact encoding_of_large (hfacts.announced hannounced) (by omega) hbound bytes hbytes
    have hencodable := encodable_publish_iff.mpr
      ⟨hp_topic, hfacts.announced hannounced, hshort⟩
    rw [encoding_eq hencodable] at hbytes
    cases hbytes
    rw [← hfacts.topic, ← hfacts.applicationMessage, acceptedAs_iff hencodable] at haccepted
    rcases haccepted with ⟨hdup, -, hwell⟩
    refine ⟨?_, ?_, ?_, ?_⟩
    · rw [← hfacts.topic]
      exact hwell
    · intro hreserved
      rcases (h.sends source .source).1 with ⟨p', hp'⟩
      rw [Publish.setQos_reserved hreserved] at hp'
      cases hp'
    · intro hduplicate hzero
      rw [hfacts.level, hfacts.dup hzero] at hdup
      exact hdup hduplicate hzero
    · rw [← hfacts.bodyLength_eq]
      exact hshort
  · exact emitted_of_sendable hsource hqos

/-- A PUBLISH with quality of service 1 that a client has sent again. -/
def duplicateBytes : Bytes := [0x3A, 0x06, 0x00, 0x01, 0x61, 0x00, 0x07, 0x62]

/-- The packet that is decoded from it. -/
def duplicatePublish : Publish := ⟨0x3A, 6, [0x61], 7, [0x62], rfl⟩

theorem source_duplicatePublish : Source duplicatePublish :=
  @Source.received duplicateBytes ⟨0x3A, 2, 8, by decide⟩ _ (by decide) (by decide) rfl

theorem emitted_iff_duplicatePublish :
    Emitted duplicatePublish .atLeastOnce ↔ Sendable duplicatePublish .atLeastOnce :=
  emitted_iff source_duplicatePublish (by decide)

/-- When it is sent with quality of service 0 it keeps its DUP flag, and is refused. -/
theorem not_emitted_duplicatePublish :
    Source duplicatePublish ∧ ¬ Emitted duplicatePublish .atMostOnce := by
  refine ⟨source_duplicatePublish, fun h => ?_⟩
  rcases (h.sends _ .source).1 with ⟨p, hset⟩
  have hfacts := (Transmitted.itself .source hset).facts
  rcases h.accepted p (.itself .source hset) with ⟨bytes, hbytes, haccepted⟩
  have hencodable : Encodable (.publish p) := by
    refine encodable_publish_iff.mpr ⟨?_, hfacts.announced rfl, ?_⟩
    · rw [hfacts.topic]
      decide
    · rw [hfacts.bodyLength_eq]
      decide
  rw [encoding_eq hencodable] at hbytes
  cases hbytes
  rw [← hfacts.topic, ← hfacts.applicationMessage, acceptedAs_iff hencodable, hfacts.level,
    hfacts.dup rfl] at haccepted
  exact haccepted.1 rfl rfl

end Dispatch
end WallyIo
