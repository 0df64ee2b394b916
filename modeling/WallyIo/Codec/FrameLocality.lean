import WallyIo.Codec.FrameBounds

/-!
# What decoding depends on

The footprint of a decoder covers every byte that its outcome depends on.  A frame that is
read between its iterators is therefore decoded in the same way wherever it stands.

Main results:

- Theorem {lit}`decode_eq_of_footprint`: buffers with the same bytes in the footprint are
  decoded in the same way.
- Theorem {lit}`decode_eq_of_body`: the bytes around a frame do not matter.
-/

namespace WallyIo
namespace Codec

open Protocol
open Library Footprint

variable {buffer buffer' : Bytes} {frame : Frame} {pos endPos n : Nat}

/-! ## Field decoders -/

theorem covers_readByte :
    (one pos (readByte buffer pos)).Covers buffer buffer' (readByte buffer' pos) := by
  apply covers_one
  intro hsame
  rw [readByte, readByte, hsame]

theorem covers_readBytes (hroom : pos + n ≤ buffer.length) (hroom' : pos + n ≤ buffer'.length) :
    (range pos n (readBytes buffer pos n)).Covers buffer buffer' (readBytes buffer' pos n) := by
  apply covers_range
  intro hsame
  rw [readBytes, readBytes, if_pos hroom, if_pos hroom']
  congr 1
  apply List.ext_getElem?
  intro i
  rw [List.getElem?_take, List.getElem?_take]
  split
  · rw [List.getElem?_drop, List.getElem?_drop, hsame (pos + i) (by omega) (by omega)]
  · rfl

theorem covers_decodeUint16 :
    (decodeUint16Footprint buffer pos endPos).Covers buffer buffer'
      (decodeUint16 buffer' pos endPos) := by
  apply covers_nothing_bind
  intro _ _
  apply covers_readByte.bind
  intro _ _
  apply covers_readByte.bind
  intro _ _
  exact covers_nothing

theorem covers_decodeQos :
    (decodeQosFootprint buffer pos endPos).Covers buffer buffer'
      (decodeQos buffer' pos endPos) := by
  apply covers_nothing_bind
  intro _ _
  apply covers_readByte.bind
  intro _ _
  exact covers_nothing

theorem covers_decodeUtf8String (hend : endPos ≤ buffer.length)
    (hend' : endPos ≤ buffer'.length) :
    (decodeUtf8StringFootprint buffer pos endPos).Covers buffer buffer'
      (decodeUtf8String buffer' pos endPos) := by
  apply covers_nothing_bind
  intro _ _
  apply covers_decodeUint16.bind
  rintro ⟨next, stringLength⟩ _
  apply covers_nothing_bind
  intro _ hroom
  have hroom := throwIf_eq_ok_iff.mp hroom
  unfold distance at hroom
  apply (covers_readBytes (by omega) (by omega)).bind
  intro _ _
  exact covers_nothing

/-! ## Packet decoders -/

theorem covers_decodeAck {type : PacketType} {flags : UInt8} {what : String}
    {packet : UInt16 → PublishAck} :
    (decodeAckFootprint type flags what packet buffer frame).Covers buffer buffer'
      (decodeAck type flags what packet buffer' frame) := by
  apply covers_nothing_bind
  intro _ _
  apply covers_nothing_bind
  intro _ _
  apply covers_decodeUint16.bind
  intro _ _
  exact covers_nothing

theorem covers_decodeLastWill {flags : UInt8} (hend : endPos ≤ buffer.length)
    (hend' : endPos ≤ buffer'.length) :
    (decodeLastWillFootprint flags buffer pos endPos).Covers buffer buffer'
      (decodeLastWill flags buffer' pos endPos) := by
  apply covers_ite
  · intro _
    apply (covers_decodeUtf8String hend hend').bind
    rintro ⟨pos₁, topic⟩ _
    apply covers_decodeUint16.bind
    rintro ⟨pos₂, lastWillMsgLen⟩ _
    apply covers_nothing_bind
    intro _ hroom
    have hroom := throwIf_eq_ok_iff.mp hroom
    unfold distance at hroom
    apply (covers_readBytes (by omega) (by omega)).bind
    intro _ _
    exact covers_nothing
  · intro _
    exact covers_nothing

theorem covers_decodeOptionalString {present : Bool} (hend : endPos ≤ buffer.length)
    (hend' : endPos ≤ buffer'.length) :
    (decodeOptionalStringFootprint present buffer pos endPos).Covers buffer buffer'
      (decodeOptionalString present buffer' pos endPos) := by
  apply covers_ite
  · intro _
    exact covers_decodeUtf8String hend hend'
  · intro _
    exact covers_nothing

/-- A loop depends on what its items depend on. -/
theorem covers_decodeItems {α : Type} {item item' : Nat → Except Fault (Nat × α)}
    {footprint : ∀ pos, Footprint (item pos)}
    (hitem : ∀ pos, (footprint pos).Covers buffer buffer' (item' pos)) {fuel : Nat} :
    (decodeItemsFootprint footprint endPos fuel pos).Covers buffer buffer'
      (decodeItems item' endPos fuel pos) := by
  induction fuel generalizing pos with
  | zero => exact covers_nothing
  | succ fuel ih =>
      apply covers_ite
      · intro _
        exact covers_nothing
      · intro _
        apply (hitem pos).bind
        rintro ⟨next, x⟩ _
        apply ih.bind
        intro _ _
        exact covers_nothing

theorem covers_decodeSubscription (hend : endPos ≤ buffer.length)
    (hend' : endPos ≤ buffer'.length) :
    (decodeSubscriptionFootprint buffer endPos pos).Covers buffer buffer'
      (decodeSubscription buffer' endPos pos) := by
  apply (covers_decodeUtf8String hend hend').bind
  rintro ⟨pos₁, topicFilter⟩ _
  apply covers_decodeQos.bind
  rintro ⟨pos₂, maximumQos⟩ _
  apply covers_nothing_bind
  intro _ _
  exact covers_nothing

variable (hend : frame.endPos ≤ buffer.length) (hend' : frame.endPos ≤ buffer'.length)
include hend hend'

theorem covers_decodeSubscribe :
    (decodeSubscribeFootprint buffer frame).Covers buffer buffer'
      (decodeSubscribe buffer' frame) := by
  apply covers_nothing_bind
  intro _ _
  apply covers_nothing_bind
  intro _ _
  apply covers_decodeUint16.bind
  rintro ⟨pos, packetId⟩ _
  apply (covers_decodeItems fun _ => covers_decodeSubscription hend hend').bind
  intro _ _
  apply covers_nothing_bind
  intro _ _
  exact covers_nothing

theorem covers_decodeUnsubscribe :
    (decodeUnsubscribeFootprint buffer frame).Covers buffer buffer'
      (decodeUnsubscribe buffer' frame) := by
  apply covers_nothing_bind
  intro _ _
  apply covers_nothing_bind
  intro _ _
  apply covers_decodeUint16.bind
  rintro ⟨pos, packetId⟩ _
  apply (covers_decodeItems fun _ => covers_decodeUtf8String hend hend').bind
  intro _ _
  apply covers_nothing_bind
  intro _ _
  exact covers_nothing

theorem covers_decodePublish :
    (decodePublishFootprint buffer frame).Covers buffer buffer' (decodePublish buffer' frame) := by
  apply covers_dite
  · intro _
    apply covers_nothing_bind
    intro _ _
    apply covers_nothing_bind
    intro _ _
    apply (covers_decodeUtf8String hend hend').bind
    rintro ⟨pos₁, topicName⟩ htopic
    have hle₁ := (next_of_decodeUtf8String hend htopic).2
    apply covers_nothing_bind
    intro _ _
    apply Covers.bind
    · apply covers_ite
      · intro _
        exact covers_decodeUint16
      · intro _
        exact covers_nothing
    · rintro ⟨pos₂, packetId⟩ hid
      have hle₂ := (next_of_decodePublishIdentifier hend hle₁ hid).2
      apply (covers_readBytes (by omega) (by omega)).bind
      intro _ _
      exact covers_nothing
  · intro _
    exact covers_nothing

theorem covers_decodeConnectPayload {protName : Bytes} {protLevel conFlags : UInt8} :
    (decodeConnectPayloadFootprint protName protLevel conFlags buffer frame pos).Covers buffer
      buffer' (decodeConnectPayload protName protLevel conFlags buffer' frame pos) := by
  apply covers_decodeUint16.bind
  rintro ⟨pos₁, keepAliveSecs⟩ _
  apply (covers_decodeUtf8String hend hend').bind
  rintro ⟨pos₂, clientId⟩ _
  apply (covers_decodeLastWill hend hend').bind
  rintro ⟨pos₃, topic, message⟩ _
  apply (covers_decodeOptionalString hend hend').bind
  rintro ⟨pos₄, username⟩ _
  apply (covers_decodeOptionalString hend hend').bind
  rintro ⟨pos₅, password⟩ _
  apply covers_nothing_bind
  intro _ _
  exact covers_nothing

theorem covers_decodeProtocolName :
    (decodeProtocolNameFootprint buffer frame).Covers buffer buffer'
      (decodeProtocolName buffer' frame) := by
  apply covers_nothing_bind
  intro _ _
  apply covers_nothing_bind
  intro _ _
  apply (covers_decodeUtf8String hend hend').bind
  rintro ⟨pos, name⟩ _
  apply covers_nothing_bind
  intro _ _
  exact covers_nothing

theorem covers_decodeConnect :
    (decodeConnectFootprint buffer frame).Covers buffer buffer' (decodeConnect buffer' frame) := by
  apply (covers_decodeProtocolName hend hend').bind
  rintro ⟨pos, name⟩ _
  apply covers_readByte.bind
  intro _ _
  apply covers_readByte.bind
  intro _ _
  exact covers_decodeConnectPayload hend hend'

/-! ## Frames -/

/-- Buffers with the same bytes in the footprint are decoded in the same way. -/
theorem decode_eq_of_footprint
    (hsame : ∀ i ∈ (decodeFootprint buffer frame).positions, buffer[i]? = buffer'[i]?) :
    decode buffer' frame = decode buffer frame := by
  unfold decodeFootprint at hsame
  cases hcase : frame.type with
  | connect =>
      rw [hcase] at hsame
      rw [decode_eq hcase rfl, decode_eq hcase rfl]
      exact covers_decodeConnect hend hend' hsame
  | subscribe =>
      rw [hcase] at hsame
      rw [decode_eq hcase rfl, decode_eq hcase rfl]
      exact covers_decodeSubscribe hend hend' hsame
  | unsubscribe =>
      rw [hcase] at hsame
      rw [decode_eq hcase rfl, decode_eq hcase rfl]
      exact covers_decodeUnsubscribe hend hend' hsame
  | publish =>
      rw [hcase] at hsame
      rw [decode_eq hcase rfl, decode_eq hcase rfl]
      exact covers_decodePublish hend hend' hsame
  | puback | pubrec | pubcomp | pubrel =>
      rw [hcase] at hsame
      rw [decode_eq hcase rfl, decode_eq hcase rfl]
      exact covers_decodeAck hsame
  | pingreq | disconnect =>
      rw [decode_eq hcase rfl, decode_eq hcase rfl]
      rfl
  | connack | suback | unsuback | pingresp | reserved1 | reserved2 =>
      have hsupported : supported frame.type = false := by rw [hcase]; rfl
      rw [decode_of_not_supported hsupported, decode_of_not_supported hsupported]

/-- The bytes around a frame do not matter, unless it is a CONNECT that ends before its protocol
level and flags. -/
theorem decode_eq_of_body (hinside : ¬ EndsInHeader buffer frame)
    (hbody : frame.body buffer = frame.body buffer') :
    decode buffer' frame = decode buffer frame := by
  apply decode_eq_of_footprint hend hend'
  intro i hi
  obtain ⟨hlo, hhi⟩ := (within_decode_iff hend).mpr hinside i hi
  have hslice := congrArg (fun bytes => bytes[i - frame.beginPos]?) hbody
  have hfront : i - frame.beginPos < frame.endPos - frame.beginPos := by omega
  have hsum : frame.beginPos + (i - frame.beginPos) = i := by omega
  simpa only [Frame.body_eq, bytesBetween, List.getElem?_take, List.getElem?_drop, if_pos hfront,
    hsum] using hslice

end Codec
end WallyIo
