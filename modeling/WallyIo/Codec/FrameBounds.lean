import WallyIo.Codec.ConnectCodec
import WallyIo.Library.Footprint

/-!
# Reading inside of a frame

Every decoder gets a footprint, which follows its steps.  The decoder of CONNECT packets
reads protocol level and flags without a check that they are there.

Main results:

- Theorem {lit}`within_decode`: frames of all other types are read between their iterators.
- Theorem {lit}`within_decodeConnect_iff`: a CONNECT is read between its iterators exactly
  if protocol level and flags stand there.
- Theorem {lit}`decode_inside_iff`: when a frame is read between its iterators and yields a
  packet or {lit}`malformed_mqtt_packet`.
-/

namespace WallyIo
namespace Codec

open Protocol
open Library Footprint

/-! ## Footprints of the field decoders -/

/-- {lit}`decodeUint16` reads two bytes behind a check. -/
def decodeUint16Footprint (buffer : Bytes) (pos endPos : Nat) :
    Footprint (decodeUint16 buffer pos endPos) :=
  .bind (.nothing _) fun _ => .bind (.one pos _) fun _ =>
    .bind (.one (pos + 1) _) fun _ => .nothing _

/-- {lit}`decodeQos` reads one byte behind a check. -/
def decodeQosFootprint (buffer : Bytes) (pos endPos : Nat) :
    Footprint (decodeQos buffer pos endPos) :=
  .bind (.nothing _) fun _ => .bind (.one pos _) fun _ => .nothing _

/-- {lit}`decodeUtf8String` reads a length and, behind another check, as many bytes. -/
def decodeUtf8StringFootprint (buffer : Bytes) (pos endPos : Nat) :
    Footprint (decodeUtf8String buffer pos endPos) :=
  .bind (.nothing _) fun _ => .bind (decodeUint16Footprint buffer pos endPos)
    fun (pos, stringLength) => .bind (.nothing _) fun _ =>
      .bind (.range pos stringLength.toNat _) fun _ => .nothing _

/-! ## Footprints of the packet decoders -/

def decodeAckFootprint (type : PacketType) (flags : UInt8) (what : String)
    (packet : UInt16 → PublishAck) (buffer : Bytes) (frame : Frame) :
    Footprint (decodeAck type flags what packet buffer frame) :=
  .bind (.nothing _) fun _ => .bind (.nothing _) fun _ =>
    .bind (decodeUint16Footprint buffer frame.beginPos frame.endPos) fun _ => .nothing _

def decodeEmptyFootprint (type : PacketType) (whatFlags whatLength : String)
    (packet : MqttPacket) (frame : Frame) :
    Footprint (decodeEmpty type whatFlags whatLength packet frame) :=
  .bind (.nothing _) fun _ => .bind (.nothing _) fun _ => .bind (.nothing _) fun _ =>
    .nothing _

def decodeLastWillFootprint (flags : UInt8) (buffer : Bytes) (pos endPos : Nat) :
    Footprint (decodeLastWill flags buffer pos endPos) :=
  .ite _
    (.bind (decodeUtf8StringFootprint buffer pos endPos) fun (pos, _) =>
      .bind (decodeUint16Footprint buffer pos endPos) fun (pos, lastWillMsgLen) =>
        .bind (.nothing _) fun _ => .bind (.range pos lastWillMsgLen.toNat _) fun _ =>
          .nothing _)
    (.nothing _)

def decodeOptionalStringFootprint (present : Bool) (buffer : Bytes) (pos endPos : Nat) :
    Footprint (decodeOptionalString present buffer pos endPos) :=
  .ite _ (decodeUtf8StringFootprint buffer pos endPos) (.nothing _)

def decodeConnectPayloadFootprint (protName : Bytes) (protLevel conFlags : UInt8)
    (buffer : Bytes) (frame : Frame) (pos : Nat) :
    Footprint (decodeConnectPayload protName protLevel conFlags buffer frame pos) :=
  .bind (decodeUint16Footprint buffer pos frame.endPos) fun (pos, _) =>
    .bind (decodeUtf8StringFootprint buffer pos frame.endPos) fun (pos, _) =>
      .bind (decodeLastWillFootprint conFlags buffer pos frame.endPos) fun (pos, _, _) =>
        .bind (decodeOptionalStringFootprint _ buffer pos frame.endPos) fun (pos, _) =>
          .bind (decodeOptionalStringFootprint _ buffer pos frame.endPos) fun (_, _) =>
            .bind (.nothing _) fun _ => .nothing _

def decodeProtocolNameFootprint (buffer : Bytes) (frame : Frame) :
    Footprint (decodeProtocolName buffer frame) :=
  .bind (.nothing _) fun _ => .bind (.nothing _) fun _ =>
    .bind (decodeUtf8StringFootprint buffer frame.beginPos frame.endPos) fun (_, _) =>
      .bind (.nothing _) fun _ => .nothing _

/-- Protocol level and flags are read without a check. -/
def decodeConnectFootprint (buffer : Bytes) (frame : Frame) :
    Footprint (decodeConnect buffer frame) :=
  .bind (decodeProtocolNameFootprint buffer frame) fun (pos, _) =>
    .bind (.one pos _) fun _ => .bind (.one (pos + 1) _) fun _ =>
      decodeConnectPayloadFootprint _ _ _ buffer frame (pos + 2)

/-- Every iteration leaves the footprint of its item. -/
def decodeItemsFootprint {α : Type} {item : Nat → Except Fault (Nat × α)}
    (footprint : ∀ pos, Footprint (item pos)) (endPos : Nat) :
    ∀ fuel pos, Footprint (decodeItems item endPos fuel pos)
  | 0, _ => .nothing _
  | fuel + 1, pos =>
      .ite (pos = endPos) (.nothing _)
        (.bind (footprint pos) fun (pos, _) =>
          .bind (decodeItemsFootprint footprint endPos fuel pos) fun _ => .nothing _)

def decodeSubscriptionFootprint (buffer : Bytes) (endPos pos : Nat) :
    Footprint (decodeSubscription buffer endPos pos) :=
  .bind (decodeUtf8StringFootprint buffer pos endPos) fun (pos, _) =>
    .bind (decodeQosFootprint buffer pos endPos) fun (_, _) =>
      .bind (.nothing _) fun _ => .nothing _

def decodeSubscribeFootprint (buffer : Bytes) (frame : Frame) :
    Footprint (decodeSubscribe buffer frame) :=
  .bind (.nothing _) fun _ => .bind (.nothing _) fun _ =>
    .bind (decodeUint16Footprint buffer frame.beginPos frame.endPos) fun (pos, _) =>
      .bind (decodeItemsFootprint (decodeSubscriptionFootprint buffer frame.endPos)
        frame.endPos (frame.endPos - pos) pos) fun _ =>
        .bind (.nothing _) fun _ => .nothing _

def decodeUnsubscribeFootprint (buffer : Bytes) (frame : Frame) :
    Footprint (decodeUnsubscribe buffer frame) :=
  .bind (.nothing _) fun _ => .bind (.nothing _) fun _ =>
    .bind (decodeUint16Footprint buffer frame.beginPos frame.endPos) fun (pos, _) =>
      .bind (decodeItemsFootprint (fun pos => decodeUtf8StringFootprint buffer pos frame.endPos)
        frame.endPos (frame.endPos - pos) pos) fun _ =>
        .bind (.nothing _) fun _ => .nothing _

def decodePublishIdentifierFootprint (qos : QoS) (buffer : Bytes) (pos endPos : Nat) :
    Footprint (decodePublishIdentifier qos buffer pos endPos) :=
  .ite _ (decodeUint16Footprint buffer pos endPos) (.nothing _)

def decodePublishFootprint (buffer : Bytes) (frame : Frame) :
    Footprint (decodePublish buffer frame) :=
  .dite _
    (fun _ => .bind (.nothing _) fun _ => .bind (.nothing _) fun _ =>
      .bind (decodeUtf8StringFootprint buffer frame.beginPos frame.endPos) fun (pos, _) =>
        .bind (.nothing _) fun _ =>
          .bind (decodePublishIdentifierFootprint _ buffer pos frame.endPos) fun (pos, _) =>
            .bind (.range pos (frame.endPos - pos) _) fun _ => .nothing _)
    fun _ => .nothing _

def decodePubackFootprint (buffer : Bytes) (frame : Frame) :
    Footprint (decodePuback buffer frame) := decodeAckFootprint _ _ _ _ buffer frame

def decodePubrecFootprint (buffer : Bytes) (frame : Frame) :
    Footprint (decodePubrec buffer frame) := decodeAckFootprint _ _ _ _ buffer frame

def decodePubrelFootprint (buffer : Bytes) (frame : Frame) :
    Footprint (decodePubrel buffer frame) := decodeAckFootprint _ _ _ _ buffer frame

def decodePubcompFootprint (buffer : Bytes) (frame : Frame) :
    Footprint (decodePubcomp buffer frame) := decodeAckFootprint _ _ _ _ buffer frame

def decodePingreqFootprint (buffer : Bytes) (frame : Frame) :
    Footprint (decodePingreq buffer frame) := decodeEmptyFootprint _ _ _ _ frame

def decodeDisconnectFootprint (buffer : Bytes) (frame : Frame) :
    Footprint (decodeDisconnect buffer frame) := decodeEmptyFootprint _ _ _ _ frame

/-- The footprint of the decoder for the type of a frame. -/
def decodeFootprint (buffer : Bytes) (frame : Frame) : Footprint (decode buffer frame) :=
  ⟨match frame.type with
    | .connect => (decodeConnectFootprint buffer frame).positions
    | .pingreq => (decodePingreqFootprint buffer frame).positions
    | .disconnect => (decodeDisconnectFootprint buffer frame).positions
    | .subscribe => (decodeSubscribeFootprint buffer frame).positions
    | .unsubscribe => (decodeUnsubscribeFootprint buffer frame).positions
    | .publish => (decodePublishFootprint buffer frame).positions
    | .puback => (decodePubackFootprint buffer frame).positions
    | .pubrec => (decodePubrecFootprint buffer frame).positions
    | .pubcomp => (decodePubcompFootprint buffer frame).positions
    | .pubrel => (decodePubrelFootprint buffer frame).positions
    | .connack | .suback | .unsuback | .pingresp | .reserved1 | .reserved2 => []⟩

/-! ## Fields are read inside of the frame -/

variable {buffer : Bytes} {frame : Frame} {lo pos endPos : Nat}

theorem within_decodeUint16 (hlo : lo ≤ pos) :
    (decodeUint16Footprint buffer pos endPos).Within lo endPos := by
  apply within_nothing_bind
  intro _ hroom
  have hroom := throwIf_eq_ok_iff.mp hroom
  unfold distance at hroom
  apply within_bind (within_one_iff.mpr (by omega))
  intro _ _
  apply within_bind (within_one_iff.mpr (by omega))
  intro _ _
  exact within_nothing

theorem within_decodeQos (hlo : lo ≤ pos) :
    (decodeQosFootprint buffer pos endPos).Within lo endPos := by
  apply within_nothing_bind
  intro _ hroom
  have hroom := throwIf_eq_ok_iff.mp hroom
  unfold distance at hroom
  apply within_bind (within_one_iff.mpr (by omega))
  intro _ _
  exact within_nothing

/-- A decoded integer moves the iterator inside of the frame. -/
theorem next_of_decodeUint16 {next : Nat} {value : UInt16} (hend : endPos ≤ buffer.length)
    (h : decodeUint16 buffer pos endPos = .ok (next, value)) : pos ≤ next ∧ next ≤ endPos := by
  rcases (decodeUint16_eq_ok_iff hend).mp h with ⟨rfl, hle, -⟩
  exact ⟨Nat.le_add_right _ _, hle⟩

/-- A decoded string moves the iterator inside of the frame. -/
theorem next_of_decodeUtf8String {next : Nat} {s : Bytes} (hend : endPos ≤ buffer.length)
    (h : decodeUtf8String buffer pos endPos = .ok (next, s)) : pos ≤ next ∧ next ≤ endPos := by
  rcases (decodeUtf8String_eq_ok_iff hend).mp h with ⟨rfl, hle, -⟩
  exact ⟨by omega, hle⟩

theorem within_decodeUtf8String (hend : endPos ≤ buffer.length) (hlo : lo ≤ pos) :
    (decodeUtf8StringFootprint buffer pos endPos).Within lo endPos := by
  apply within_nothing_bind
  intro _ _
  apply within_bind (within_decodeUint16 hlo)
  rintro ⟨next, stringLength⟩ hlength
  obtain ⟨hle, hle'⟩ := next_of_decodeUint16 hend hlength
  apply within_nothing_bind
  intro _ hroom
  have hroom := throwIf_eq_ok_iff.mp hroom
  unfold distance at hroom
  apply within_bind (within_range (Nat.le_trans hlo hle) (by omega))
  intro _ _
  exact within_nothing

/-! ## Packets are read inside of the frame -/

theorem within_decodeAck {type : PacketType} {flags : UInt8} {what : String}
    {packet : UInt16 → PublishAck} :
    (decodeAckFootprint type flags what packet buffer frame).Within frame.beginPos
      frame.endPos := by
  apply within_nothing_bind
  intro _ _
  apply within_nothing_bind
  intro _ _
  apply within_bind (within_decodeUint16 (Nat.le_refl _))
  intro _ _
  exact within_nothing

theorem within_decodeEmpty {type : PacketType} {whatFlags whatLength : String}
    {packet : MqttPacket} {hi : Nat} :
    (decodeEmptyFootprint type whatFlags whatLength packet frame).Within lo hi := by
  apply within_nothing_bind
  intro _ _
  apply within_nothing_bind
  intro _ _
  apply within_nothing_bind
  intro _ _
  exact within_nothing

theorem within_decodeLastWill {flags : UInt8} (hend : endPos ≤ buffer.length) (hlo : lo ≤ pos) :
    (decodeLastWillFootprint flags buffer pos endPos).Within lo endPos := by
  apply within_ite
  · intro _
    apply within_bind (within_decodeUtf8String hend hlo)
    rintro ⟨pos₁, topic⟩ htopic
    have hlo₁ := Nat.le_trans hlo (next_of_decodeUtf8String hend htopic).1
    apply within_bind (within_decodeUint16 hlo₁)
    rintro ⟨pos₂, lastWillMsgLen⟩ hlength
    obtain ⟨hle₂, hle₂'⟩ := next_of_decodeUint16 hend hlength
    apply within_nothing_bind
    intro _ hroom
    have hroom := throwIf_eq_ok_iff.mp hroom
    unfold distance at hroom
    apply within_bind (within_range (Nat.le_trans hlo₁ hle₂) (by omega))
    intro _ _
    exact within_nothing
  · intro _
    exact within_nothing

theorem within_decodeOptionalString {present : Bool} (hend : endPos ≤ buffer.length)
    (hlo : lo ≤ pos) :
    (decodeOptionalStringFootprint present buffer pos endPos).Within lo endPos := by
  apply within_ite
  · intro _
    exact within_decodeUtf8String hend hlo
  · intro _
    exact within_nothing

/-- A loop over items stays inside of the frame if its items do. -/
theorem within_decodeItems {α : Type} {item : Nat → Except Fault (Nat × α)}
    {footprint : ∀ pos, Footprint (item pos)}
    (hitem : ∀ pos, lo ≤ pos → (footprint pos).Within lo endPos)
    (hnext : ∀ pos next x, item pos = .ok (next, x) → pos ≤ next) {fuel : Nat} (hlo : lo ≤ pos) :
    (decodeItemsFootprint footprint endPos fuel pos).Within lo endPos := by
  induction fuel generalizing pos with
  | zero => exact within_nothing
  | succ fuel ih =>
      apply within_ite
      · intro _
        exact within_nothing
      · intro _
        apply within_bind (hitem pos hlo)
        rintro ⟨next, x⟩ hx
        apply within_bind (ih (Nat.le_trans hlo (hnext pos next x hx)))
        intro _ _
        exact within_nothing

theorem within_decodeSubscription (hend : endPos ≤ buffer.length) (hlo : lo ≤ pos) :
    (decodeSubscriptionFootprint buffer endPos pos).Within lo endPos := by
  apply within_bind (within_decodeUtf8String hend hlo)
  rintro ⟨pos₁, topicFilter⟩ hfilter
  have hlo₁ := Nat.le_trans hlo (next_of_decodeUtf8String hend hfilter).1
  apply within_bind (within_decodeQos hlo₁)
  rintro ⟨pos₂, maximumQos⟩ _
  apply within_nothing_bind
  intro _ _
  exact within_nothing

theorem within_decodeSubscribe (hend : frame.endPos ≤ buffer.length) :
    (decodeSubscribeFootprint buffer frame).Within frame.beginPos frame.endPos := by
  apply within_nothing_bind
  intro _ _
  apply within_nothing_bind
  intro _ _
  apply within_bind (within_decodeUint16 (Nat.le_refl _))
  rintro ⟨pos, packetId⟩ hid
  have hnext (pos next : Nat) (s : Subscription)
      (h : decodeSubscription buffer frame.endPos pos = .ok (next, s)) : pos ≤ next :=
    Nat.le_of_lt (decodeSubscription_forward hend h).1
  apply within_bind
  · exact within_decodeItems (fun _ hlo => within_decodeSubscription hend hlo) hnext
      (next_of_decodeUint16 hend hid).1
  · intro _ _
    apply within_nothing_bind
    intro _ _
    exact within_nothing

theorem within_decodeUnsubscribe (hend : frame.endPos ≤ buffer.length) :
    (decodeUnsubscribeFootprint buffer frame).Within frame.beginPos frame.endPos := by
  apply within_nothing_bind
  intro _ _
  apply within_nothing_bind
  intro _ _
  apply within_bind (within_decodeUint16 (Nat.le_refl _))
  rintro ⟨pos, packetId⟩ hid
  have hnext (pos next : Nat) (s : Bytes)
      (h : decodeUtf8String buffer pos frame.endPos = .ok (next, s)) : pos ≤ next :=
    (next_of_decodeUtf8String hend h).1
  apply within_bind
  · exact within_decodeItems (fun _ hlo => within_decodeUtf8String hend hlo) hnext
      (next_of_decodeUint16 hend hid).1
  · intro _ _
    apply within_nothing_bind
    intro _ _
    exact within_nothing

/-- An optional identifier moves the iterator inside of the frame. -/
theorem next_of_decodePublishIdentifier {qos : QoS} {next : Nat} {packetId : UInt16}
    (hend : endPos ≤ buffer.length) (hpos : pos ≤ endPos)
    (h : decodePublishIdentifier qos buffer pos endPos = .ok (next, packetId)) :
    pos ≤ next ∧ next ≤ endPos := by
  unfold decodePublishIdentifier at h
  split at h
  · exact next_of_decodeUint16 hend h
  · cases h
    exact ⟨Nat.le_refl _, hpos⟩

theorem within_decodePublish (hend : frame.endPos ≤ buffer.length) :
    (decodePublishFootprint buffer frame).Within frame.beginPos frame.endPos := by
  apply within_dite
  · intro _
    apply within_nothing_bind
    intro _ _
    apply within_nothing_bind
    intro _ _
    apply within_bind (within_decodeUtf8String hend (Nat.le_refl _))
    rintro ⟨pos₁, topicName⟩ htopic
    obtain ⟨hle₁, hle₁'⟩ := next_of_decodeUtf8String hend htopic
    apply within_nothing_bind
    intro _ _
    apply within_bind
    · apply within_ite
      · intro _
        exact within_decodeUint16 hle₁
      · intro _
        exact within_nothing
    · rintro ⟨pos₂, packetId⟩ hid
      obtain ⟨hle₂, hle₂'⟩ := next_of_decodePublishIdentifier hend hle₁' hid
      apply within_bind (within_range (Nat.le_trans hle₁ hle₂) (by omega))
      intro _ _
      exact within_nothing
  · intro _
    exact within_nothing

/-! ## CONNECT packets -/

/-- An optional string does not move the iterator back. -/
theorem next_of_decodeOptionalString {present : Bool} {next : Nat} {s : Bytes}
    (hend : endPos ≤ buffer.length)
    (h : decodeOptionalString present buffer pos endPos = .ok (next, s)) : pos ≤ next := by
  unfold decodeOptionalString at h
  split at h
  · exact (next_of_decodeUtf8String hend h).1
  · cases h
    exact Nat.le_refl _

/-- A last will does not move the iterator back. -/
theorem next_of_decodeLastWill {flags : UInt8} {next : Nat} {topic message : Bytes}
    (hend : endPos ≤ buffer.length)
    (h : decodeLastWill flags buffer pos endPos = .ok (next, topic, message)) : pos ≤ next := by
  cases hflag : containsLastWillFlag flags with
  | true =>
      obtain ⟨mid, htopic, hmessage⟩ := (decodeLastWill_eq_ok_iff_strings hflag).mp h
      exact Nat.le_trans (next_of_decodeUtf8String hend htopic).1
        (next_of_decodeUtf8String hend hmessage).1
  | false =>
      rw [decodeLastWill, hflag, if_neg (by decide)] at h
      cases h
      exact Nat.le_refl _

theorem within_decodeConnectPayload {protName : Bytes} {protLevel conFlags : UInt8}
    (hend : frame.endPos ≤ buffer.length) (hlo : lo ≤ pos) :
    (decodeConnectPayloadFootprint protName protLevel conFlags buffer frame pos).Within lo
      frame.endPos := by
  apply within_bind (within_decodeUint16 hlo)
  rintro ⟨pos₁, keepAliveSecs⟩ hkeepAlive
  have hlo := Nat.le_trans hlo (next_of_decodeUint16 hend hkeepAlive).1
  apply within_bind (within_decodeUtf8String hend hlo)
  rintro ⟨pos₂, clientId⟩ hclientId
  have hlo := Nat.le_trans hlo (next_of_decodeUtf8String hend hclientId).1
  apply within_bind (within_decodeLastWill hend hlo)
  rintro ⟨pos₃, topic, message⟩ hwill
  have hlo := Nat.le_trans hlo (next_of_decodeLastWill hend hwill)
  apply within_bind (within_decodeOptionalString hend hlo)
  rintro ⟨pos₄, username⟩ husername
  have hlo := Nat.le_trans hlo (next_of_decodeOptionalString hend husername)
  apply within_bind (within_decodeOptionalString hend hlo)
  rintro ⟨pos₅, password⟩ _
  apply within_nothing_bind
  intro _ _
  exact within_nothing

theorem within_decodeProtocolName (hend : frame.endPos ≤ buffer.length) :
    (decodeProtocolNameFootprint buffer frame).Within frame.beginPos frame.endPos := by
  apply within_nothing_bind
  intro _ _
  apply within_nothing_bind
  intro _ _
  apply within_bind (within_decodeUtf8String hend (Nat.le_refl _))
  rintro ⟨pos, name⟩ _
  apply within_nothing_bind
  intro _ _
  exact within_nothing

/-- A CONNECT is read between its iterators exactly if protocol level and flags stand
there. -/
theorem within_decodeConnect_iff (hend : frame.endPos ≤ buffer.length) :
    (decodeConnectFootprint buffer frame).Within frame.beginPos frame.endPos ↔
      ∀ pos name, decodeProtocolName buffer frame = .ok (pos, name) → pos + 2 ≤ frame.endPos := by
  constructor
  · intro h pos name hname
    obtain ⟨-, h⟩ := within_bind_iff.mp h
    obtain ⟨hlevel, h⟩ := within_bind_iff.mp (h ⟨pos, name⟩ hname)
    have hlevel := within_one_iff.mp hlevel
    have hread := readByte_of_lt (Nat.lt_of_lt_of_le hlevel.2 hend)
    have hflags := within_one_iff.mp (within_bind_iff.mp (h _ hread)).1
    exact hflags.2
  · intro h
    apply within_bind (within_decodeProtocolName hend)
    rintro ⟨pos, name⟩ hname
    have hroom := h pos name hname
    have hlo := ((decodeProtocolName_eq_ok_iff_slice hend).mp hname).2.2.2.2.1
    apply within_bind (within_one_iff.mpr ⟨hlo, by omega⟩)
    intro _ _
    apply within_bind (within_one_iff.mpr ⟨by omega, by omega⟩)
    intro _ _
    exact within_decodeConnectPayload hend (by omega)

/-- The frame is a CONNECT that ends behind its protocol name, before level and flags. -/
def EndsInHeader (buffer : Bytes) (frame : Frame) : Prop :=
  frame.type = .connect ∧ frame.typeAndFlags &&& 0x0F = 0x00 ∧
    ∃ name rest : Bytes, name ≠ [] ∧ name.length ≤ 65535 ∧
      frame.body buffer = stringBytes name ++ rest ∧ rest.length < 2

/-- The decoder finds a protocol name and too few bytes behind it. -/
theorem endsInHeader_iff (hend : frame.endPos ≤ buffer.length) :
    EndsInHeader buffer frame ↔
      ∃ pos name, decodeProtocolName buffer frame = .ok (pos, name) ∧
        frame.endPos < pos + 2 := by
  have hbody : frame.body buffer = FieldReader.slice buffer frame.beginPos frame.endPos := rfl
  constructor
  · rintro ⟨htype, hflags, name, rest, hnonempty, hshort, hbytes, hrest⟩
    rw [hbody] at hbytes
    obtain ⟨pos, hle, hle', hname, rfl⟩ :=
      (FieldReader.slice_eq_append_iff frame.ordered hend).mp hbytes
    rw [FieldReader.length_slice hend] at hrest
    exact ⟨pos, name, (decodeProtocolName_eq_ok_iff_slice hend).mpr
      ⟨htype, hflags, hnonempty, hshort, hle, hle', hname⟩, by omega⟩
  · rintro ⟨pos, name, hname, hroom⟩
    rcases (decodeProtocolName_eq_ok_iff_slice hend).mp hname with
      ⟨htype, hflags, hnonempty, hshort, hle, hle', hslice⟩
    refine ⟨htype, hflags, name, FieldReader.slice buffer pos frame.endPos, hnonempty, hshort,
      ?_, ?_⟩
    · rw [hbody, ← hslice, FieldReader.slice_append hle hle']
    · rw [FieldReader.length_slice hend]
      omega

/-- Frames of all types but CONNECT are read between their iterators. -/
theorem within_decode (hend : frame.endPos ≤ buffer.length) (htype : frame.type ≠ .connect) :
    (decodeFootprint buffer frame).Within frame.beginPos frame.endPos := by
  unfold decodeFootprint
  cases hcase : frame.type with
  | connect => exact absurd hcase htype
  | pingreq | disconnect => exact within_decodeEmpty
  | subscribe => exact within_decodeSubscribe hend
  | unsubscribe => exact within_decodeUnsubscribe hend
  | publish => exact within_decodePublish hend
  | puback | pubrec | pubcomp | pubrel => exact within_decodeAck
  | connack | suback | unsuback | pingresp | reserved1 | reserved2 =>
      exact fun _ hi => absurd hi List.not_mem_nil

/-- Which frames are read between their iterators. -/
theorem within_decode_iff (hend : frame.endPos ≤ buffer.length) :
    (decodeFootprint buffer frame).Within frame.beginPos frame.endPos ↔
      ¬ EndsInHeader buffer frame := by
  by_cases htype : frame.type = .connect
  · have hfootprint : (decodeFootprint buffer frame).Within frame.beginPos frame.endPos ↔
        (decodeConnectFootprint buffer frame).Within frame.beginPos frame.endPos := by
      unfold decodeFootprint
      rw [htype]
      exact Iff.rfl
    rw [hfootprint, within_decodeConnect_iff hend, endsInHeader_iff hend]
    constructor
    · rintro hinside ⟨pos, name, hname, hout⟩
      exact absurd (hinside pos name hname) (Nat.not_le.mpr hout)
    · intro hinside pos name hname
      by_contra hout
      exact hinside ⟨pos, name, hname, Nat.lt_of_not_le hout⟩
  · exact iff_of_true (within_decode hend htype) fun hends => htype hends.1

/-- When a frame is read between its iterators and yields a packet or
{lit}`malformed_mqtt_packet`. -/
theorem decode_inside_iff (hend : frame.endPos ≤ buffer.length)
    (hsupported : supported frame.type = true) :
    (decodeFootprint buffer frame).Within frame.beginPos frame.endPos ∧
        Caught (decode buffer frame) ↔ ¬ EndsInHeader buffer frame := by
  rw [within_decode_iff hend]
  refine ⟨fun h => h.1, fun hinside => ⟨hinside, (caught_decode_iff hend).mpr ⟨hsupported, ?_⟩⟩⟩
  rintro ⟨-, pos, name, hname, hout⟩
  -- a decoder that runs out of the buffer has left the frame before
  exact hinside ((endsInHeader_iff hend).mpr ⟨pos, name, hname, by omega⟩)

/-- A complete CONNECT is read between its iterators. -/
theorem decode_inside_full :
    (decodeFootprint fullConnect (connectFrame 22)).Within 0 22 ∧
        Caught (decode fullConnect (connectFrame 22)) ↔
      ¬ EndsInHeader fullConnect (connectFrame 22) :=
  decode_inside_iff (Nat.le_refl 22) rfl

/-- Of a CONNECT whose frame ends behind the protocol name, two bytes behind the frame are
read. -/
theorem decode_outside :
    (connectFrame 3).type = .connect ∧ (connectFrame 3).endPos ≤ fullConnect.length ∧
      3 ∈ (decodeFootprint fullConnect (connectFrame 3)).positions ∧
        4 ∈ (decodeFootprint fullConnect (connectFrame 3)).positions ∧
          ¬ (decodeFootprint fullConnect (connectFrame 3)).Within 0 3 := by
  decide

end Codec
end WallyIo
