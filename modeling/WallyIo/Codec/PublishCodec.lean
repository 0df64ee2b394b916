import WallyIo.Codec.Fields
import WallyIo.Codec.FrameSplitting

/-!
# Encoding and decoding PUBLISH packets

A PUBLISH is decoded from exactly the bodies that it is encoded as.

Main results:

- Theorem {lit}`decodePublish_eq_ok_iff`: which packet is decoded from which frame.
- Theorem {lit}`decode_encoding`: a packet that may be decoded is read back from its
  encoding.
- Theorem {lit}`publish_roundTrip`: encoding and decoding are inverses of each other.
-/

namespace WallyIo
namespace Codec

open Protocol
open Library FieldReader

/-! ## Which packets are decoded -/

/-- A topic name that the decoder accepts. -/
structure WellFormedTopicName (topicName : Bytes) : Prop where
  nonempty : topicName ≠ []
  atMost : topicName.length ≤ 65535
  noNull : 0x00 ∉ topicName
  noPlus : 0x2B ∉ topicName
  noHash : 0x23 ∉ topicName

instance (topicName : Bytes) : Decidable (WellFormedTopicName topicName) :=
  decidable_of_iff (topicName ≠ [] ∧ topicName.length ≤ 65535 ∧ 0x00 ∉ topicName ∧
      0x2B ∉ topicName ∧ 0x23 ∉ topicName)
    ⟨fun h => ⟨h.1, h.2.1, h.2.2.1, h.2.2.2.1, h.2.2.2.2⟩,
      fun h => ⟨h.nonempty, h.atMost, h.noNull, h.noPlus, h.noHash⟩⟩

theorem checkWellFormedTopicName_eq_ok_iff {topicName : Bytes} {u : Unit} :
    checkWellFormedTopicName topicName = .ok u ↔ WellFormedTopicName topicName := by
  simp only [checkWellFormedTopicName, bind_eq_ok_iff, throwIf_eq_ok_iff, exists_const]
  constructor
  · rintro ⟨hnonempty, hatMost, hnull, hplus, hhash⟩
    exact ⟨hnonempty, by omega, hnull, hplus, hhash⟩
  · rintro ⟨hnonempty, hatMost, hnull, hplus, hhash⟩
    exact ⟨hnonempty, by omega, hnull, hplus, hhash⟩

/-- A packet that can be decoded from a frame. -/
structure Decodable (p : Publish) : Prop where
  notDuplicate : p.dup = true → p.qos ≠ .atMostOnce
  notReserved : p.qos ≠ .reserved
  topic : WellFormedTopicName p.topic
  identifier : p.qos = .atMostOnce → p.packetIdentifier = 0

/-! ## PUBLISH packets -/

/-- The packet identifier of a body, which is there if the quality of service is not 0. -/
def identifierBytes (qos : QoS) (packetIdentifier : UInt16) : Bytes :=
  if qos ≠ .atMostOnce then uint16Bytes packetIdentifier else []

variable {buffer : Bytes} {endPos : Nat}

/-- A packet identifier is read if there is one. -/
theorem reads_publishIdentifier {qos : QoS} (hqos : qos ≠ .reserved)
    (hend : endPos ≤ buffer.length) :
    Reads buffer endPos (fun pos => decodePublishIdentifier qos buffer pos endPos)
      fun packetId field =>
        (qos = .atMostOnce → packetId = 0) ∧ field = identifierBytes qos packetId := by
  intro pos pos' packetId hpos
  beta_reduce
  cases qos with
  | reserved => exact absurd rfl hqos
  | atMostOnce =>
      rw [decodePublishIdentifier, if_neg (by decide)]
      constructor
      · intro h
        cases h
        exact ⟨Nat.le_refl _, hpos, fun _ => rfl, slice_self⟩
      · rintro ⟨hle, hle', hzero, hslice⟩
        rw [hzero rfl, (slice_eq_nil_iff hle (Nat.le_trans hle' hend)).mp hslice]
  | atLeastOnce | exactlyOnce =>
      rw [decodePublishIdentifier, if_pos (by decide)]
      refine (reads_uint16 hend pos pos' packetId hpos).trans ?_
      constructor
      · rintro ⟨hle, hle', hslice⟩
        exact ⟨hle, hle', nofun, hslice⟩
      · rintro ⟨hle, hle', -, hslice⟩
        exact ⟨hle, hle', hslice⟩

variable {frame : Frame} {p : Publish}

/-- What is decoded is a PUBLISH. -/
theorem isPublish_of_decodePublish {decoded : MqttPacket}
    (h : decodePublish buffer frame = .ok decoded) : ∃ p, decoded = .publish p := by
  unfold decodePublish at h
  split at h
  · simp only [bind_eq_ok_iff] at h
    rcases h with ⟨_, _, _, _, _, _, _, _, _, _, _, _, hresult⟩
    cases hresult
    exact ⟨_, rfl⟩
  · cases h

/-- A frame is decoded as a PUBLISH exactly if its flags are legal and its body consists of a
topic name, a packet identifier and a message. -/
theorem decodePublish_eq_ok_iff_fields {packet : MqttPacket} (hend : frame.endPos ≤ buffer.length)
    (htype : frame.type = .publish) :
    decodePublish buffer frame = .ok packet ↔
      ¬ (dupOf frame.typeAndFlags = true ∧ qosOf frame.typeAndFlags 1 = .atMostOnce) ∧
        ¬ qosOf frame.typeAndFlags 1 = .reserved ∧
        ∃ topicName packetId message, WellFormedTopicName topicName ∧
          (qosOf frame.typeAndFlags 1 = .atMostOnce → packetId = 0) ∧
          frame.body buffer = stringBytes topicName ++
            (identifierBytes (qosOf frame.typeAndFlags 1) packetId ++ message) ∧
          packet = .publish ⟨frame.typeAndFlags, UInt32.ofNat frame.remainingLength, topicName,
            packetId, message, htype⟩ := by
  unfold decodePublish
  dsimp only
  rw [dif_pos htype, throwIf_bind_eq_ok_iff, throwIf_bind_eq_ok_iff]
  refine and_congr_right' (and_congr_right fun hqos => ?_)
  refine ((reads_utf8String hend).bind_eq_ok_iff frame.ordered hend (fun topicName rest =>
    WellFormedTopicName topicName ∧ ∃ packetId message,
      (qosOf frame.typeAndFlags 1 = .atMostOnce → packetId = 0) ∧
      rest = identifierBytes (qosOf frame.typeAndFlags 1) packetId ++ message ∧
      packet = .publish ⟨frame.typeAndFlags, UInt32.ofNat frame.remainingLength, topicName,
        packetId, message, htype⟩) ?_).trans ?_
  · intro pos₁ topicName _ hle₁ _
    rw [bind_eq_ok_iff]
    simp only [checkWellFormedTopicName_eq_ok_iff, exists_const]
    refine and_congr_right' ?_
    refine ((reads_publishIdentifier hqos hend).bind_eq_ok_iff hle₁ hend (fun packetId rest =>
      packet = .publish ⟨frame.typeAndFlags, UInt32.ofNat frame.remainingLength, topicName,
        packetId, rest, htype⟩) ?_).trans ?_
    · intro pos₂ packetId _ hle₂ _
      rw [bind_eq_ok_iff]
      simp only [readBytes_between hle₂ hend]
      constructor
      · rintro ⟨message, hmessage, hresult⟩
        cases hmessage
        cases hresult
        rfl
      · rintro rfl
        exact ⟨_, rfl, rfl⟩
    · constructor
      · rintro ⟨packetId, _, message, ⟨hzero, rfl⟩, hrest, hpacket⟩
        exact ⟨packetId, message, hzero, hrest, hpacket⟩
      · rintro ⟨packetId, message, hzero, hrest, hpacket⟩
        exact ⟨packetId, _, message, ⟨hzero, rfl⟩, hrest, hpacket⟩
  · constructor
    · rintro ⟨topicName, _, _, ⟨-, rfl⟩, hbody, hwell, packetId, message, hzero, rfl, hpacket⟩
      exact ⟨topicName, packetId, message, hwell, hzero, hbody, hpacket⟩
    · rintro ⟨topicName, packetId, message, hwell, hzero, hbody, hpacket⟩
      exact ⟨topicName, _, _, ⟨hwell.atMost, rfl⟩, hbody, hwell, packetId, message, hzero, rfl,
        hpacket⟩

/-- The packet that is decoded from a frame is the one whose body and flags the frame
has. -/
theorem decodePublish_eq_ok_iff (hend : frame.endPos ≤ buffer.length) :
    decodePublish buffer frame = .ok (.publish p) ↔
      p.typeAndFlags = frame.typeAndFlags ∧
        p.remainingLength = UInt32.ofNat frame.remainingLength ∧ Decodable p ∧
          frame.body buffer = bodyOf (.publish p) := by
  have hbodyOf : bodyOf (.publish p) =
      stringBytes p.topic ++ (identifierBytes p.qos p.packetIdentifier ++ p.applicationMessage) :=
    List.append_assoc _ _ _
  rw [hbodyOf]
  constructor
  · intro h
    by_cases htype : frame.type = .publish
    · rcases (decodePublish_eq_ok_iff_fields hend htype).mp h with
        ⟨hdup, hreserved, topicName, packetId, message, hwell, hzero, hbody, hpacket⟩
      cases hpacket
      exact ⟨rfl, rfl, ⟨fun h hqos => hdup ⟨h, hqos⟩, hreserved, hwell, hzero⟩, hbody⟩
    · rw [decodePublish, dif_neg htype] at h
      cases h
  · rintro ⟨hflags, hlength, hdecodable, hbody⟩
    have htype : frame.type = .publish := by
      rw [Frame.type, ← hflags]
      exact p.isPublish
    refine (decodePublish_eq_ok_iff_fields hend htype).mpr ?_
    simp only [← hflags, ← hlength]
    exact ⟨fun h => hdecodable.notDuplicate h.1 h.2, hdecodable.notReserved, p.topic,
      p.packetIdentifier, p.applicationMessage, hdecodable.topic, hdecodable.identifier, hbody, rfl⟩

/-! ## The round trip -/

/-- The body of a PUBLISH. -/
theorem length_bodyOf_publish (p : Publish) :
    (bodyOf (.publish p)).length = 2 + p.topic.length +
      (if p.qos = .atMostOnce then 0 else 2) + p.applicationMessage.length := by
  by_cases hqos : p.qos = .atMostOnce
  · simp [bodyOf, hqos]
    omega
  · simp [bodyOf, hqos]
    omega

/-- A decoded packet announces the length of its body. -/
theorem encodable_of_decodePublish (hend : frame.endPos ≤ buffer.length)
    (hlength : frame.remainingLength ≤ 268435455)
    (h : decodePublish buffer frame = .ok (.publish p)) : Encodable (.publish p) := by
  rcases (decodePublish_eq_ok_iff hend).mp h with ⟨-, hremaining, hdecodable, hbody⟩
  have hvalue : p.remainingLength.toNat = frame.remainingLength := by
    rw [hremaining, UInt32.toNat_ofNat']
    omega
  refine ⟨hdecodable.topic.atMost, ?_, ?_⟩
  · rw [le_maxAllowedPacketLength_iff, remainingLengthOf, hvalue]
    exact hlength
  · rw [remainingLengthOf, hvalue, ← hbody, Frame.body_eq, length_bytesBetween hend]
    rfl

/-- A packet that may be decoded is read back from its encoding. -/
theorem decode_encoding (hencodable : Encodable (.publish p)) (hdecodable : Decodable p)
    {rest : Bytes} {reader : FrameReader}
    (h : Driven (hencodable.wirePacket.bytes ++ rest) reader hencodable.wirePacket.bytes.length) :
    ∃ reader' frame, reader.call false hencodable.wirePacket.bytes.length = .ok (0, reader') ∧
      reader'.frame = some frame ∧
        decode reader'.buffer.elements frame = .ok (.publish p) := by
  rcases frame_of_holds h.holds with ⟨frame, hcall, htype, hend, hremaining, hbody⟩
  refine ⟨_, frame, hcall, rfl, ?_⟩
  have hflags : p.typeAndFlags = frame.typeAndFlags := htype.symm
  have hpublish : frame.type = .publish := by
    rw [Frame.type, ← hflags]
    exact p.isPublish
  have hannounced := hencodable.announced
  rw [decode_eq hpublish rfl, decodePublish_eq_ok_iff hend]
  refine ⟨hflags, ?_, hdecodable, hbody⟩
  have hsize : frame.remainingLength = p.remainingLength.toNat := hremaining.trans hannounced.symm
  rw [hsize, UInt32.ofNat_toNat]

/-- The packet that the encoding of a PUBLISH is decoded as: an identifier that is not
encoded is decoded as 0. -/
def asDecoded (p : Publish) : Publish :=
  if p.qos = .atMostOnce then p.withNewPacketIdentifier 0 else p

/-- A PUBLISH has the same body as what it is decoded as. -/
theorem bodyOf_asDecoded (p : Publish) :
    bodyOf (.publish (asDecoded p)) = bodyOf (.publish p) := by
  by_cases hqos : p.qos = .atMostOnce
  · simp [asDecoded, bodyOf, hqos]
  · simp [asDecoded, hqos]

/-- A PUBLISH has the same flags, topic and message as what it is decoded as. -/
theorem asDecoded_frame (p : Publish) : (asDecoded p).typeAndFlags = p.typeAndFlags ∧
    (asDecoded p).remainingLength = p.remainingLength ∧ (asDecoded p).topic = p.topic ∧
      (asDecoded p).applicationMessage = p.applicationMessage := by
  unfold asDecoded
  split
  · exact ⟨rfl, rfl, rfl, rfl⟩
  · exact ⟨rfl, rfl, rfl, rfl⟩

/-- The bytes of one PUBLISH, which is decoded with the given topic and message. -/
def AcceptedAs (topic applicationMessage bytes : Bytes) : Prop :=
  ∃ (packet : WirePacket) (p : Publish), packet.bytes = bytes ∧
    decodePublish packet.bytes packet.frame = .ok (.publish p) ∧ p.topic = topic ∧
      p.applicationMessage = applicationMessage

/-- When the encoding of a packet is accepted by the decoder. -/
theorem acceptedAs_iff (hencodable : Encodable (.publish p)) :
    AcceptedAs p.topic p.applicationMessage hencodable.wirePacket.bytes ↔
      (p.dup = true → p.qos ≠ .atMostOnce) ∧ p.qos ≠ .reserved ∧
        WellFormedTopicName p.topic := by
  have hend : ∀ packet : WirePacket, packet.frame.endPos ≤ packet.bytes.length :=
    fun packet => Nat.le_refl _
  constructor
  · rintro ⟨packet, decoded, hbytes, hdecode, htopic, -⟩
    rcases (decodePublish_eq_ok_iff (hend packet)).mp hdecode with ⟨hflags, -, hdecodable, -⟩
    have hpacket := WirePacket.bytes_injective hbytes
    have hsame : decoded.typeAndFlags = p.typeAndFlags := by
      rw [hflags, hpacket]
      rfl
    have hqos : decoded.qos = p.qos := congrArg (qosOf · 1) hsame
    have hdup : decoded.dup = p.dup := congrArg dupOf hsame
    rw [← htopic, ← hqos, ← hdup]
    exact ⟨hdecodable.notDuplicate, hdecodable.notReserved, hdecodable.topic⟩
  · rintro ⟨hdup, hreserved, htopic⟩
    rcases asDecoded_frame p with ⟨hflags, hlength, htopic', hmessage⟩
    have hqos : (asDecoded p).qos = p.qos := congrArg (qosOf · 1) hflags
    have hannounced := hencodable.announced
    refine ⟨hencodable.wirePacket, asDecoded p, rfl, ?_, htopic', hmessage⟩
    rw [decodePublish_eq_ok_iff (hend _)]
    refine ⟨hflags, ?_, ⟨?_, ?_, ?_, ?_⟩, ?_⟩
    · have hsize : hencodable.wirePacket.frame.remainingLength = p.remainingLength.toNat :=
        (WirePacket.remainingLength_frame _).trans hannounced.symm
      rw [hsize, UInt32.ofNat_toNat, hlength]
    · rw [hqos, Publish.dup, hflags]
      exact hdup
    · rw [hqos]
      exact hreserved
    · rw [htopic']
      exact htopic
    · intro hzero
      rw [hqos] at hzero
      rw [asDecoded, if_pos hzero]
      rfl
    · rw [WirePacket.body_frame, bodyOf_asDecoded]
      rfl

/-- What is asked of a packet that is created. -/
structure Creatable (dup : Bool) (qos : QoS) (topic : Bytes) (packetIdentifier : UInt16)
    (applicationMessage : Bytes) : Prop where
  notReserved : qos ≠ .reserved
  duplicate : dup = true → qos ≠ .atMostOnce
  wellFormed : WellFormedTopicName topic
  identifier : qos = .atMostOnce → packetIdentifier = 0
  remainingLength : 2 + topic.length + (if qos = .atMostOnce then 0 else 2) +
    applicationMessage.length ≤ 268435455

theorem dupOf_createFlags (dup : Bool) (qos : QoS) (retain : Bool) (hqos : qos ≠ .reserved) :
    dupOf (Publish.createFlags dup qos retain) = dup := by
  cases qos with
  | reserved => exact absurd rfl hqos
  | atMostOnce | atLeastOnce | exactlyOnce => cases dup <;> cases retain <;> decide

variable {dup retain : Bool} {qos : QoS} {topic applicationMessage : Bytes}
  {packetIdentifier : UInt16}

/-- A packet that can be created may be decoded. -/
theorem Creatable.decodable
    (h : Creatable dup qos topic packetIdentifier applicationMessage) :
    Decodable (.create dup qos retain topic packetIdentifier applicationMessage) := by
  refine ⟨?_, ?_, h.wellFormed, ?_⟩
  · intro hdup
    rw [Publish.qos_create]
    exact h.duplicate ((dupOf_createFlags dup qos retain h.notReserved).symm.trans hdup)
  · rw [Publish.qos_create]
    exact h.notReserved
  · rw [Publish.qos_create]
    exact h.identifier

/-- A packet that can be created announces the length of its body. -/
theorem Creatable.encodable
    (h : Creatable dup qos topic packetIdentifier applicationMessage) :
    Encodable (.publish (.create dup qos retain topic packetIdentifier applicationMessage)) := by
  have hsize := h.remainingLength
  have hvalue : (Publish.create dup qos retain topic packetIdentifier
      applicationMessage).remainingLength.toNat = 2 + topic.length +
        (if qos = .atMostOnce then 0 else 2) + applicationMessage.length := by
    simp only [Publish.create, UInt32.toNat_add, UInt32.toNat_ofNat']
    split at hsize
    · rename_i hzero
      rw [if_pos hzero, if_pos hzero]
      simp only [UInt32.reduceToNat]
      omega
    · rename_i hpositive
      rw [if_neg hpositive, if_neg hpositive]
      simp only [UInt32.reduceToNat]
      omega
  refine ⟨h.wellFormed.atMost, ?_, ?_⟩
  · rw [le_maxAllowedPacketLength_iff, remainingLengthOf, hvalue]
    exact hsize
  · rw [remainingLengthOf, hvalue, length_bodyOf_publish, Publish.qos_create]
    rfl

/-- What is encoded is read back, and what has been decoded is encoded as it was
received. -/
theorem publish_roundTrip :
    (∀ (dup : Bool) (qos : QoS) (retain : Bool) (topic : Bytes) (packetIdentifier : UInt16)
      (applicationMessage : Bytes),
      Creatable dup qos topic packetIdentifier applicationMessage →
        ∃ bytes, encoding (.publish (.create dup qos retain topic packetIdentifier
            applicationMessage)) = .ok bytes ∧
          ∀ rest, (∃ reader, Driven (bytes ++ rest) reader bytes.length) ∧
            ∀ reader, Driven (bytes ++ rest) reader bytes.length →
              ∃ reader' frame, reader.call false bytes.length = .ok (0, reader') ∧
                reader'.frame = some frame ∧
                  decode reader'.buffer.elements frame = .ok (.publish (.create dup qos retain
                    topic packetIdentifier applicationMessage))) ∧
    (∀ (buffer : Bytes) (frame : Frame) (decoded : MqttPacket), frame.endPos ≤ buffer.length →
      frame.remainingLength ≤ 268435455 → decodePublish buffer frame = .ok decoded →
        ∃ packet : WirePacket, encoding decoded = .ok packet.bytes ∧
          packet.typeAndFlags = frame.typeAndFlags ∧ packet.body = frame.body buffer) := by
  constructor
  · intro dup qos retain topic packetIdentifier applicationMessage h
    have hencodable : Encodable (.publish (.create dup qos retain topic packetIdentifier
        applicationMessage)) := h.encodable
    refine ⟨_, encoding_eq hencodable, fun rest => ⟨?_, ?_⟩⟩
    · exact ⟨_, driven_ofList _ rest (Nat.le_refl _)⟩
    · intro reader hdriven
      exact decode_encoding hencodable h.decodable hdriven
  · intro buffer frame decoded hend hlength h
    rcases isPublish_of_decodePublish h with ⟨p, rfl⟩
    have hencodable := encodable_of_decodePublish hend hlength h
    rcases (decodePublish_eq_ok_iff hend).mp h with ⟨hflags, -, -, hbody⟩
    exact ⟨hencodable.wirePacket, encoding_eq hencodable, hflags, hbody.symm⟩

/-- A PUBLISH with quality of service 0 in a buffer. -/
def sampleFrame : Frame := ⟨0x31, 2, 6, by decide⟩

theorem publish_roundTrip_sample :
    (∃ bytes, encoding (.publish (.create true .exactlyOnce false [0x61] 7 [0x62])) =
        .ok bytes ∧
      (∃ reader, Driven (bytes ++ [0xC0, 0x00]) reader bytes.length) ∧
        ∀ reader, Driven (bytes ++ [0xC0, 0x00]) reader bytes.length →
          ∃ reader' frame, reader.call false bytes.length = .ok (0, reader') ∧
            reader'.frame = some frame ∧ decode reader'.buffer.elements frame =
              .ok (.publish (.create true .exactlyOnce false [0x61] 7 [0x62]))) ∧
    ∃ packet : WirePacket,
      encoding (.publish ⟨0x31, 4, [0x61], 0, [0x62], rfl⟩) = .ok packet.bytes ∧
        packet.typeAndFlags = 0x31 ∧ packet.body = [0x00, 0x01, 0x61, 0x62] := by
  constructor
  · rcases publish_roundTrip.1 true .exactlyOnce false [0x61] 7 [0x62]
      ⟨by decide, by decide, by decide, by decide, by decide⟩ with ⟨bytes, hbytes, hreads⟩
    exact ⟨bytes, hbytes, hreads [0xC0, 0x00]⟩
  · exact publish_roundTrip.2 [0x31, 0x04, 0x00, 0x01, 0x61, 0x62] sampleFrame _ (by decide)
      (by decide) rfl

end Codec
end WallyIo
