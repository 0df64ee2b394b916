import WallyIo.Dispatch.Delivery

/-!
# The length that a packet advertises

The remaining length of a PUBLISH is stored.  It is computed once and then adjusted whenever
the quality of service changes.  The vector that a packet is encoded into has the total
length that follows from it.

Main results:

- Theorem {lit}`Obtained.announced`: whatever is done to a PUBLISH, its remaining length stays
  that of its body.
- Theorem {lit}`encode_writes`: a packet that is sent fills its total length.
-/

namespace WallyIo
namespace Dispatch

open Protocol Library Codec

variable {p p' : Publish} {packet : MqttPacket}

/-! ## How a PUBLISH comes about -/

/-- A PUBLISH that has been created or decoded, and whatever is made of it. -/
inductive Obtained : Publish → Prop
  | create {dup retain : Bool} {qos : QoS} {topic : Bytes} {packetIdentifier : UInt16}
      {applicationMessage : Bytes} (hqos : qos ≠ .reserved) :
      Obtained (.create dup qos retain topic packetIdentifier applicationMessage)
  | decode {p : Publish} {buffer : Bytes} {frame : Frame} (hend : frame.endPos ≤ buffer.length)
      (h : decodePublish buffer frame = .ok (.publish p)) : Obtained p
  | setQos {p p' : Publish} {qos : QoS} (hqos : qos ≠ .reserved) (h : p.setQos qos = .ok p')
      (hp : Obtained p) : Obtained p'
  | setDup {p : Publish} (dup : Bool) (hp : Obtained p) : Obtained (p.setDup dup)
  | setRetain {p : Publish} (retain : Bool) (hp : Obtained p) : Obtained (p.setRetain retain)
  | withNewPacketIdentifier {p : Publish} (i : UInt16) (hp : Obtained p) :
      Obtained (p.withNewPacketIdentifier i)

/-- A decoded PUBLISH announces its length. -/
theorem announced_of_decodePublish {buffer : Bytes} {frame : Frame}
    (hend : frame.endPos ≤ buffer.length) (h : decodePublish buffer frame = .ok (.publish p)) :
    Announced p := by
  obtain ⟨-, hremaining, -, hbody⟩ := (decodePublish_eq_ok_iff hend).mp h
  have hlength : frame.remainingLength = bodyLength p p.qos := by
    rw [bodyLength, ← length_bodyOf_publish, ← hbody, Frame.body_eq, length_bytesBetween hend]
    rfl
  rw [Announced, hremaining, UInt32.toNat_ofNat', hlength]

/-- Whatever is done to a PUBLISH, it announces its length. -/
theorem Obtained.announced (h : Obtained p) : Announced p := by
  induction h with
  | create _ => exact announced_create _ _ _ _ _ _
  | decode hend h => exact announced_of_decodePublish hend h
  | setQos hqos h _ ih => exact ih.setQos h hqos
  | setDup dup _ ih => exact ih.setDup dup
  | setRetain retain _ ih => exact ih.setRetain retain
  | withNewPacketIdentifier i _ ih => exact ih.withNewPacketIdentifier i

/-- The quality of service of a packet that is obtained is not reserved, so that another one can be
assigned. -/
theorem Obtained.not_reserved (h : Obtained p) : p.qos ≠ .reserved := by
  induction h with
  | create hqos =>
      rw [Publish.qos_create]
      exact hqos
  | decode hend h => exact ((decodePublish_eq_ok_iff hend).mp h).2.2.1.notReserved
  | setQos hqos h _ _ =>
      rw [Publish.qos_of_setQos h]
      exact hqos
  | setDup dup _ ih =>
      rw [Publish.qos_setDup]
      exact ih
  | setRetain retain _ ih =>
      rw [Publish.qos_setRetain]
      exact ih
  | withNewPacketIdentifier i _ ih => exact ih

theorem Obtained.exists_setQos (h : Obtained p) {qos : QoS} (hqos : qos ≠ .reserved) :
    ∃ p', p.setQos qos = .ok p' ∧ Obtained p' := by
  obtain ⟨p', hset⟩ := Publish.setQos_eq_ok h.not_reserved qos
  exact ⟨p', hset, .setQos hqos hset h⟩

/-! ## Packets that the encoder supports -/

/-- The packets that the encoder supports. -/
inductive Supported : MqttPacket → Prop
  | connack (connack : Connack) : Supported (.connack connack)
  | suback {suback : Suback} (hcodes : SubackReturnCode.reserved ∉ suback.returnCodes) :
      Supported (.suback suback)
  | unsuback (unsuback : Unsuback) : Supported (.unsuback unsuback)
  | pingresp : Supported .pingresp
  | publishAck (ack : PublishAck) : Supported (.publishAck ack)
  | publish {p : Publish} (hp : Obtained p) (htopic : p.topic.length ≤ 65535) :
      Supported (.publish p)

/-- The encoders of bodies can write it. -/
theorem Supported.bodyEncodable (h : Supported packet) : BodyEncodable packet := by
  cases h with
  | suback hcodes => exact hcodes
  | publish _ htopic => exact htopic
  | connack | unsuback | pingresp | publishAck => trivial

/-- The stored remaining length is that of the body, as far as 32 bits can hold it. -/
theorem Supported.announced (h : Supported packet) :
    (remainingLengthOf packet).toNat = (bodyOf packet).length % 2 ^ 32 := by
  cases h with
  | suback =>
      simp only [bodyOf, List.length_append, length_uint16Bytes, List.length_map,
        remainingLengthOf, Suback.remainingLength, UInt32.toNat_add, UInt32.toNat_ofNat',
        UInt32.reduceToNat]
      omega
  | publish hp =>
      rw [length_bodyOf_publish]
      exact hp.announced
  | connack | unsuback | pingresp | publishAck => rfl

/-- A body that is not too long is one whose length can be stored and whose stored length is
allowed. -/
theorem Supported.length_le_iff (h : Supported packet) :
    (bodyOf packet).length ≤ 268435455 ↔
      (bodyOf packet).length < 2 ^ 32 ∧ remainingLengthOf packet ≤ maxAllowedPacketLength := by
  rw [le_maxAllowedPacketLength_iff, h.announced]
  omega

/-- A packet whose body is not too long stores the length of its body. -/
theorem Supported.encodable (h : Supported packet) (hlength : (bodyOf packet).length ≤ 268435455) :
    Encodable packet where
  body := h.bodyEncodable
  allowed := (h.length_le_iff.mp hlength).2
  announced := h.announced.trans (Nat.mod_eq_of_lt (h.length_le_iff.mp hlength).1)

/-- A packet that the encoder supports is written into its total length, and its remaining
length is what follows the fixed header. -/
theorem encode_writes {size : Nat} {it : OutputIterator size} (h : Supported packet)
    (hlength : (bodyOf packet).length ≤ 268435455)
    (hroom : it.written.length + totalLengthOf packet ≤ size) :
    ∃ behindHeader behindBody : OutputIterator size,
      encodeFixedHeader (typeAndFlagsOf packet) (remainingLengthOf packet) it = .ok behindHeader ∧
        encode packet it = .ok behindBody ∧
          behindBody.written.length = it.written.length + totalLengthOf packet ∧
            behindBody.written.length =
              behindHeader.written.length + (remainingLengthOf packet).toNat := by
  have hencodable := h.encodable hlength
  have htotal := hencodable.length_bytes
  have hbytes : hencodable.wirePacket.bytes.length =
      (1 + (Base128.encode (remainingLengthOf packet).toNat).length) + (bodyOf packet).length := by
    rw [WirePacket.length_bytes, WirePacket.headerLength, Nat.add_comm 1]
    rfl
  refine ⟨_, _, (encodeFixedHeader_eq hencodable.allowed _ it).trans
    (OutputIterator.putAll_of_le ?_), (encode_eq_putAll hencodable hroom).trans
    (OutputIterator.putAll_of_le ?_), ?_, ?_⟩
  · rw [List.length_cons]
    omega
  · omega
  · rw [List.length_append, htotal]
  · have hannounced := hencodable.announced
    rw [List.length_append, List.length_append, List.length_cons]
    omega

/-- A PUBLISH that has been lowered to quality of service 0, and so has lost its identifier. -/
def loweredPublish : Publish := ⟨0x31, 5, [0x61], 7, [0x62, 0x63], rfl⟩

theorem encode_writes_lowered :
    (Publish.create false .exactlyOnce true [0x61] 7 [0x62, 0x63]).setQos .atMostOnce =
        .ok loweredPublish ∧
      ∃ behindHeader behindBody : OutputIterator 7,
        encodeFixedHeader (typeAndFlagsOf (.publish loweredPublish))
            (remainingLengthOf (.publish loweredPublish)) (.start 7) = .ok behindHeader ∧
          encode (.publish loweredPublish) (.start 7) = .ok behindBody ∧
            behindBody.written.length = (OutputIterator.start 7).written.length +
              totalLengthOf (.publish loweredPublish) ∧
            behindBody.written.length = behindHeader.written.length +
              (remainingLengthOf (.publish loweredPublish)).toNat := by
  have hset : (Publish.create false .exactlyOnce true [0x61] 7 [0x62, 0x63]).setQos .atMostOnce =
      .ok loweredPublish := rfl
  have hsupported : Supported (.publish loweredPublish) :=
    .publish (.setQos (by decide) hset (.create (by decide))) (by decide)
  exact ⟨hset, encode_writes hsupported (by decide) (by decide)⟩

end Dispatch
end WallyIo
