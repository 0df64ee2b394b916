import WallyIo.Codec.Decoder

/-!
# Decoding packets

For every packet type that a server receives there is a decoder of packet bodies.
All of them check the flags of the first byte and that fields do not run out of
the frame; the decoder of CONNECT packets reads protocol level and flags without
such a check.

Main results:

- Theorem {lit}`caught_decode_iff`: decoding a frame raises nothing but
  {lit}`malformed_mqtt_packet`, unless the packet type is not supported or the
  protocol level or flags of a CONNECT lie behind the end of the buffer.
- Theorem {lit}`supported_of_decode`: only packets of supported types are decoded.
-/

namespace WallyIo
namespace Codec

open Protocol
open Library

/-! ## Acknowledgements -/

/-- Decode a packet that consists of a packet identifier. -/
def decodeAck (type : PacketType) (flags : UInt8) (what : String)
    (packet : UInt16 → PublishAck) (buffer : Bytes) (frame : Frame) :
    Except Fault MqttPacket := do
  assert (frame.type == type)
  throwIf (frame.typeAndFlags &&& 0x0F ≠ flags) what
  let (_, packetId) ← decodeUint16 buffer frame.beginPos frame.endPos
  .ok (.publishAck (packet packetId))

/-- Decode a PUBACK packet. -/
def decodePuback : Bytes → Frame → Except Fault MqttPacket :=
  decodeAck .puback 0x00 "[MQTT-2.2.2-1] Invalid flags in PUBACK packet." .puback

/-- Decode a PUBREC packet. -/
def decodePubrec : Bytes → Frame → Except Fault MqttPacket :=
  decodeAck .pubrec 0x00 "[MQTT-2.2.2-1] Invalid flags in PUBREC packet." .pubrec

/-- Decode a PUBREL packet. -/
def decodePubrel : Bytes → Frame → Except Fault MqttPacket :=
  decodeAck .pubrel 0x02 "[MQTT-2.2.2-1] Invalid flags in PUBREL packet." .pubrel

/-- Decode a PUBCOMP packet. -/
def decodePubcomp : Bytes → Frame → Except Fault MqttPacket :=
  decodeAck .pubcomp 0x00 "[MQTT-2.2.2-1] Invalid flags in PUBCOMP packet." .pubcomp

/-! ## Packets without a body -/

/-- Decode a packet that consists of the fixed header. -/
def decodeEmpty (type : PacketType) (whatFlags whatLength : String) (packet : MqttPacket)
    (frame : Frame) : Except Fault MqttPacket := do
  assert (frame.type == type)
  throwIf (frame.typeAndFlags &&& 0x0F ≠ 0x00) whatFlags
  throwIf (frame.remainingLength ≠ 0) whatLength
  .ok packet

/-- Decode a PINGREQ packet. -/
def decodePingreq (_buffer : Bytes) : Frame → Except Fault MqttPacket :=
  decodeEmpty .pingreq "[MQTT-2.2.2-2] PINGREQ packet contains invalid fixed header flags"
    "PINGREQ fixed header reports remaining length != 0 (violates MQTT 3.1.1 spec)" .pingreq

/-- Decode a DISCONNECT packet. -/
def decodeDisconnect (_buffer : Bytes) : Frame → Except Fault MqttPacket :=
  decodeEmpty .disconnect
    "[MQTT-3.14.1.-1] DISCONNECT header has non-zero flags set (violates MQTT 3.1.1 spec)"
    "DISCONNECT fixed header reports remaining length != 0 (violates MQTT 3.1.1 spec)"
    .disconnect

/-! ## CONNECT -/

/-- The last will of a CONNECT, if its flags announce one. -/
def decodeLastWill (flags : UInt8) (buffer : Bytes) (pos endPos : Nat) :
    Except Fault (Nat × Bytes × Bytes) :=
  if containsLastWillFlag flags then do
    let (pos, lastWillTopic) ← decodeUtf8String buffer pos endPos
    let (pos, lastWillMsgLen) ← decodeUint16 buffer pos endPos
    throwIf (lastWillMsgLen.toNat > distance pos endPos)
      "Length of last will message in CONNECT packet exceeds advertised remaining length"
    let lastWillMsg ← readBytes buffer pos lastWillMsgLen.toNat
    .ok (pos + lastWillMsgLen.toNat, lastWillTopic, lastWillMsg)
  else .ok (pos, [], [])

/-- A string that is there if a flag is set. -/
def decodeOptionalString (present : Bool) (buffer : Bytes) (pos endPos : Nat) :
    Except Fault (Nat × Bytes) :=
  if present then decodeUtf8String buffer pos endPos else .ok (pos, [])

/-- The part of a CONNECT behind its flags. -/
def decodeConnectPayload (protName : Bytes) (protLevel conFlags : UInt8) (buffer : Bytes)
    (frame : Frame) (pos : Nat) : Except Fault MqttPacket := do
  let (pos, keepAliveSecs) ← decodeUint16 buffer pos frame.endPos
  let (pos, clientId) ← decodeUtf8String buffer pos frame.endPos
  let (pos, lastWillTopic, lastWillMsg) ← decodeLastWill conFlags buffer pos frame.endPos
  let (pos, username) ←
    decodeOptionalString ((conFlags &&& 0x80) == 0x80) buffer pos frame.endPos
  let (pos, password) ←
    decodeOptionalString ((conFlags &&& 0x40) == 0x40) buffer pos frame.endPos
  throwIf (pos ≠ frame.endPos)
    "Combined size of fields in buffers does not add up to advertised remaining length"
  .ok (.connect (.create (UInt32.ofNat frame.remainingLength) protName protLevel conFlags
    keepAliveSecs clientId lastWillTopic lastWillMsg username password))

/-- The part of a CONNECT in front of its protocol level. -/
def decodeProtocolName (buffer : Bytes) (frame : Frame) : Except Fault (Nat × Bytes) := do
  assert (frame.type == .connect)
  throwIf (frame.typeAndFlags &&& 0x0F ≠ 0x00)
    "[MQTT-2.2.2-2] CONNECT packet contains invalid fixed header flags"
  let (pos, protocolName) ← decodeUtf8String buffer frame.beginPos frame.endPos
  throwIf (protocolName = []) "CONNECT packet does not contain protocol name"
  .ok (pos, protocolName)

/-- Decode a CONNECT packet. -/
def decodeConnect (buffer : Bytes) (frame : Frame) : Except Fault MqttPacket := do
  let (pos, protocolName) ← decodeProtocolName buffer frame
  let protocolLevel ← readByte buffer pos
  let connectFlags ← readByte buffer (pos + 1)
  decodeConnectPayload protocolName protocolLevel connectFlags buffer frame (pos + 2)

/-! ## SUBSCRIBE and UNSUBSCRIBE -/

/-- Decode items until the end of the frame.  Every item occupies at least one
byte, so that the length of the frame bounds the number of iterations. -/
def decodeItems {α : Type} (item : Nat → Except Fault (Nat × α)) (endPos : Nat) :
    Nat → Nat → Except Fault (List α)
  | fuel, pos =>
      if pos = endPos then .ok []
      else
        match fuel with
        | 0 => .error .undefinedBehaviour
        | fuel + 1 => do
            let (pos, x) ← item pos
            let xs ← decodeItems item endPos fuel pos
            .ok (x :: xs)

/-- A topic filter and the quality of service that is asked for. -/
def decodeSubscription (buffer : Bytes) (endPos pos : Nat) :
    Except Fault (Nat × Subscription) := do
  let (pos, topicFilter) ← decodeUtf8String buffer pos endPos
  let (pos, maximumQos) ← decodeQos buffer pos endPos
  let subscription ← Subscription.create topicFilter maximumQos
  .ok (pos, subscription)

/-- Decode a SUBSCRIBE packet. -/
def decodeSubscribe (buffer : Bytes) (frame : Frame) : Except Fault MqttPacket := do
  assert (frame.type == .subscribe)
  throwIf (frame.typeAndFlags &&& 0x0F ≠ 0x02)
    "[MQTT-3.8.1-1] Illegal header flags in SUBSCRIBE packet"
  let (pos, packetId) ← decodeUint16 buffer frame.beginPos frame.endPos
  let subscriptions ← decodeItems (decodeSubscription buffer frame.endPos) frame.endPos
    (frame.endPos - pos) pos
  throwIf (subscriptions = []) ("[MQTT-3.8.3-3] A SUBSCRIBE packet MUST contain at least " ++
    "one subscription (topic filter/QoS pair)")
  .ok (.subscribe ⟨UInt32.ofNat frame.remainingLength, packetId, subscriptions⟩)

/-- Decode an UNSUBSCRIBE packet. -/
def decodeUnsubscribe (buffer : Bytes) (frame : Frame) : Except Fault MqttPacket := do
  assert (frame.type == .unsubscribe)
  throwIf (frame.typeAndFlags &&& 0x0F ≠ 0x02)
    "[MQTT-3.10.1-1] Illegal header flags in UNSUBSCRIBE packet"
  let (pos, packetId) ← decodeUint16 buffer frame.beginPos frame.endPos
  let topicFilters ← decodeItems (fun pos => decodeUtf8String buffer pos frame.endPos)
    frame.endPos (frame.endPos - pos) pos
  throwIf (topicFilters = []) ("[MQTT-3.10.3-2] A UNSUBSCRIBE packet MUST contain at " ++
    "least one subscription (topic filter)")
  .ok (.unsubscribe ⟨UInt32.ofNat frame.remainingLength, packetId, topicFilters⟩)

/-! ## PUBLISH -/

/-- Throw if a topic name is not well formed. -/
def checkWellFormedTopicName (topicName : Bytes) : Except Fault Unit := do
  throwIf (topicName = []) "[MQTT-4.7.3-1] Topic name MUST be at least one character long"
  throwIf (topicName.length > 65535)
    "[MQTT-4.7.3-3] Topic name MUST NOT be longer than 65535 characters"
  throwIf (0x00 ∈ topicName)
    "[MQTT-4.7.3-2] Topic name MUST NOT include null character (U+0000)"
  throwIf (0x2B ∈ topicName)
    "[MQTT-4.7.1-1] Topic name MUST NOT include wildcard character '+'"
  throwIf (0x23 ∈ topicName)
    "[MQTT-4.7.1-1] Topic name MUST NOT include wildcard character '#'"

/-- The packet identifier, which a PUBLISH with quality of service 0 lacks. -/
def decodePublishIdentifier (qos : QoS) (buffer : Bytes) (pos endPos : Nat) :
    Except Fault (Nat × UInt16) :=
  if qos = .atLeastOnce ∨ qos = .exactlyOnce then decodeUint16 buffer pos endPos
  else .ok (pos, 0)

/-- Decode a PUBLISH packet. -/
def decodePublish (buffer : Bytes) (frame : Frame) : Except Fault MqttPacket :=
  if h : frame.type = .publish then do
    let dup := dupOf frame.typeAndFlags
    let qos := qosOf frame.typeAndFlags 1
    throwIf (dup = true ∧ qos = .atMostOnce)
      "[MQTT-3.3.1-2] DUP flag set but QoS is 0 (at most once)"
    throwIf (qos = .reserved) "[MQTT-3.3.1-4] QoS MUST NOT be 3 (RESERVED)"
    let (pos, topicName) ← decodeUtf8String buffer frame.beginPos frame.endPos
    checkWellFormedTopicName topicName
    let (pos, packetId) ← decodePublishIdentifier qos buffer pos frame.endPos
    let applicationMessage ← readBytes buffer pos (frame.endPos - pos)
    .ok (.publish ⟨frame.typeAndFlags, UInt32.ofNat frame.remainingLength, topicName, packetId,
      applicationMessage, h⟩)
  else .error .assertion

/-! ## All packet types -/

/-- The decoder of bodies for a packet type. -/
def bodyDecoderFor : PacketType → Except Fault (Bytes → Frame → Except Fault MqttPacket)
  | .connect => .ok decodeConnect
  | .pingreq => .ok decodePingreq
  | .disconnect => .ok decodeDisconnect
  | .subscribe => .ok decodeSubscribe
  | .unsubscribe => .ok decodeUnsubscribe
  | .publish => .ok decodePublish
  | .puback => .ok decodePuback
  | .pubrec => .ok decodePubrec
  | .pubcomp => .ok decodePubcomp
  | .pubrel => .ok decodePubrel
  | .connack | .suback | .unsuback | .pingresp | .reserved1 | .reserved2 =>
      .error (.invalidArgument "Unsupported MQTT control packet type")

/-- Decode a frame. -/
def decode (buffer : Bytes) (frame : Frame) : Except Fault MqttPacket := do
  let bodyDecoder ← bodyDecoderFor frame.type
  bodyDecoder buffer frame

/-! ## What the decoders throw -/

variable {buffer : Bytes} {frame : Frame}

/-- An assertion that holds leaves the rest of a computation. -/
theorem assert_type_bind {α : Type} {type : PacketType} {f : Unit → Except Fault α}
    (h : frame.type = type) : (assert (frame.type == type) >>= f) = f () := by
  rw [h, beq_self_eq_true]
  rfl

theorem caught_decodeAck {type : PacketType} {flags : UInt8} {what : String}
    {packet : UInt16 → PublishAck} (hend : frame.endPos ≤ buffer.length)
    (htype : frame.type = type) : Caught (decodeAck type flags what packet buffer frame) := by
  unfold decodeAck
  rw [assert_type_bind htype]
  apply caught_throwIf_bind
  intro _
  apply caught_bind (caught_decodeUint16 hend)
  rintro ⟨pos, packetId⟩ _
  exact caught_ok _

theorem caught_decodeEmpty {type : PacketType} {whatFlags whatLength : String}
    {packet : MqttPacket} (htype : frame.type = type) :
    Caught (decodeEmpty type whatFlags whatLength packet frame) := by
  unfold decodeEmpty
  rw [assert_type_bind htype]
  apply caught_throwIf_bind
  intro _
  apply caught_throwIf_bind
  intro _
  exact caught_ok _

theorem caught_decodeLastWill {flags : UInt8} {pos endPos : Nat}
    (hend : endPos ≤ buffer.length) :
    Caught (decodeLastWill flags buffer pos endPos) := by
  unfold decodeLastWill
  split
  · apply caught_bind (caught_decodeUtf8String hend)
    rintro ⟨pos₁, topic⟩ _
    apply caught_bind (caught_decodeUint16 hend)
    rintro ⟨pos₂, length⟩ _
    apply caught_throwIf_bind
    intro hroom
    apply caught_bind
    · apply caught_readBytes
      unfold distance at hroom
      omega
    · intro message _
      exact caught_ok _
  · exact caught_ok _

theorem caught_decodeOptionalString {present : Bool} {pos endPos : Nat}
    (hend : endPos ≤ buffer.length) :
    Caught (decodeOptionalString present buffer pos endPos) := by
  unfold decodeOptionalString
  split
  · exact caught_decodeUtf8String hend
  · exact caught_ok _

theorem caught_decodeConnectPayload {protName : Bytes} {protLevel conFlags : UInt8} {pos : Nat}
    (hend : frame.endPos ≤ buffer.length) :
    Caught (decodeConnectPayload protName protLevel conFlags buffer frame pos) := by
  unfold decodeConnectPayload
  apply caught_bind (caught_decodeUint16 hend)
  rintro ⟨pos₁, keepAliveSecs⟩ _
  apply caught_bind (caught_decodeUtf8String hend)
  rintro ⟨pos₂, clientId⟩ _
  apply caught_bind (caught_decodeLastWill hend)
  rintro ⟨pos₃, topic, message⟩ _
  apply caught_bind (caught_decodeOptionalString hend)
  rintro ⟨pos₄, username⟩ _
  apply caught_bind (caught_decodeOptionalString hend)
  rintro ⟨pos₅, password⟩ _
  apply caught_throwIf_bind
  intro _
  exact caught_ok _

theorem caught_decodeProtocolName (hend : frame.endPos ≤ buffer.length)
    (htype : frame.type = .connect) : Caught (decodeProtocolName buffer frame) := by
  unfold decodeProtocolName
  rw [assert_type_bind htype]
  apply caught_throwIf_bind
  intro _
  apply caught_bind (caught_decodeUtf8String hend)
  rintro ⟨pos, name⟩ _
  apply caught_throwIf_bind
  intro _
  exact caught_ok _

/-- Decoding a CONNECT runs out of the buffer exactly if protocol level or flags lie
behind its end. -/
theorem caught_decodeConnect_iff (hend : frame.endPos ≤ buffer.length)
    (htype : frame.type = .connect) :
    Caught (decodeConnect buffer frame) ↔
      ∀ pos name, decodeProtocolName buffer frame = .ok (pos, name) →
        pos + 2 ≤ buffer.length := by
  unfold decodeConnect
  rw [caught_bind_iff]
  constructor
  · rintro ⟨-, hrest⟩ pos name hname
    by_contra hout
    have hcaught := hrest (pos, name) hname
    rw [caught_bind_iff] at hcaught
    rcases hcaught with ⟨hlevel, hflags⟩
    by_cases hpos : pos < buffer.length
    · have hread := hflags _ (readByte_of_lt hpos)
      rw [readByte_of_le (by omega)] at hread
      exact hread
    · rw [readByte_of_le (by omega)] at hlevel
      exact hlevel
  · intro hinside
    refine ⟨caught_decodeProtocolName hend htype, ?_⟩
    rintro ⟨pos, name⟩ hname
    have hroom := hinside pos name hname
    apply caught_bind (caught_readByte (by omega))
    intro protocolLevel _
    apply caught_bind (caught_readByte (by omega))
    intro connectFlags _
    exact caught_decodeConnectPayload hend

/-- The loop over items is caught if every item is and moves the iterator forward. -/
theorem caught_decodeItems {α : Type} {item : Nat → Except Fault (Nat × α)} {endPos : Nat}
    (hitem : ∀ pos, Caught (item pos))
    (hforward : ∀ pos pos' x, item pos = .ok (pos', x) → pos < pos' ∧ pos' ≤ endPos)
    (fuel pos : Nat) (hle : pos ≤ endPos) (hfuel : endPos - pos ≤ fuel) :
    Caught (decodeItems item endPos fuel pos) := by
  induction fuel generalizing pos with
  | zero =>
      have hdone : pos = endPos := by omega
      unfold decodeItems
      rw [if_pos hdone]
      exact caught_ok _
  | succ fuel ih =>
      unfold decodeItems
      split
      · exact caught_ok _
      · apply caught_bind (hitem pos)
        rintro ⟨pos', x⟩ hx
        rcases hforward pos pos' x hx with ⟨hlt, hle'⟩
        apply caught_bind (ih pos' hle' (by omega))
        intro xs _
        exact caught_ok _

theorem caught_create {topicFilter : Bytes} {maximumQos : QoS} :
    Caught (Subscription.create topicFilter maximumQos) := by
  unfold Subscription.create
  split
  · exact caught_ok _
  · exact caught_malformed _

theorem caught_decodeSubscription {endPos pos : Nat} (hend : endPos ≤ buffer.length) :
    Caught (decodeSubscription buffer endPos pos) := by
  unfold decodeSubscription
  apply caught_bind (caught_decodeUtf8String hend)
  rintro ⟨pos₁, topicFilter⟩ _
  apply caught_bind (caught_decodeQos hend)
  rintro ⟨pos₂, maximumQos⟩ _
  apply caught_bind caught_create
  intro subscription _
  exact caught_ok _

/-- A subscription lies inside of the frame. -/
theorem decodeSubscription_forward {endPos pos pos' : Nat} {subscription : Subscription}
    (hend : endPos ≤ buffer.length)
    (h : decodeSubscription buffer endPos pos = .ok (pos', subscription)) :
    pos < pos' ∧ pos' ≤ endPos := by
  unfold decodeSubscription at h
  rcases bind_eq_ok_iff.mp h with ⟨⟨pos₁, topicFilter⟩, hfilter, hrest⟩
  rcases bind_eq_ok_iff.mp hrest with ⟨⟨pos₂, maximumQos⟩, hqos, hlast⟩
  rcases bind_eq_ok_iff.mp hlast with ⟨subscription', -, hresult⟩
  cases hresult
  have hstring := ((decodeUtf8String_eq_ok_iff hend).mp hfilter).1
  have hbyte := decodeQos_eq_ok hqos
  omega

theorem caught_decodeSubscribe (hend : frame.endPos ≤ buffer.length)
    (htype : frame.type = .subscribe) : Caught (decodeSubscribe buffer frame) := by
  unfold decodeSubscribe
  rw [assert_type_bind htype]
  apply caught_throwIf_bind
  intro _
  apply caught_bind (caught_decodeUint16 hend)
  rintro ⟨pos, packetId⟩ hid
  have hpos := (decodeUint16_eq_ok_iff hend).mp hid
  apply caught_bind
  · apply caught_decodeItems
    · intro pos
      exact caught_decodeSubscription hend
    · intro pos pos' subscription h
      exact decodeSubscription_forward hend h
    · omega
    · exact Nat.le_refl _
  · intro subscriptions _
    apply caught_throwIf_bind
    intro _
    exact caught_ok _

theorem caught_decodeUnsubscribe (hend : frame.endPos ≤ buffer.length)
    (htype : frame.type = .unsubscribe) : Caught (decodeUnsubscribe buffer frame) := by
  unfold decodeUnsubscribe
  rw [assert_type_bind htype]
  apply caught_throwIf_bind
  intro _
  apply caught_bind (caught_decodeUint16 hend)
  rintro ⟨pos, packetId⟩ hid
  have hpos := (decodeUint16_eq_ok_iff hend).mp hid
  apply caught_bind
  · apply caught_decodeItems
    · intro pos
      exact caught_decodeUtf8String hend
    · intro pos pos' topicFilter h
      have hstring := (decodeUtf8String_eq_ok_iff hend).mp h
      omega
    · omega
    · exact Nat.le_refl _
  · intro topicFilters _
    apply caught_throwIf_bind
    intro _
    exact caught_ok _

theorem caught_checkWellFormedTopicName {topicName : Bytes} :
    Caught (checkWellFormedTopicName topicName) := by
  unfold checkWellFormedTopicName
  apply caught_throwIf_bind
  intro _
  apply caught_throwIf_bind
  intro _
  apply caught_throwIf_bind
  intro _
  apply caught_throwIf_bind
  intro _
  exact caught_throwIf _ _

theorem caught_decodePublish (hend : frame.endPos ≤ buffer.length)
    (htype : frame.type = .publish) : Caught (decodePublish buffer frame) := by
  unfold decodePublish
  rw [dif_pos htype]
  apply caught_throwIf_bind
  intro _
  apply caught_throwIf_bind
  intro _
  apply caught_bind (caught_decodeUtf8String hend)
  rintro ⟨pos, topicName⟩ hname
  have hstring := (decodeUtf8String_eq_ok_iff hend).mp hname
  apply caught_bind caught_checkWellFormedTopicName
  intro _ _
  apply caught_bind
  · unfold decodePublishIdentifier
    split
    · exact caught_decodeUint16 hend
    · exact caught_ok _
  · rintro ⟨pos', packetId⟩ hid
    have hpos : pos' ≤ frame.endPos := by
      unfold decodePublishIdentifier at hid
      split at hid
      · have huint := (decodeUint16_eq_ok_iff hend).mp hid
        omega
      · cases hid
        omega
    apply caught_bind (caught_readBytes (by omega))
    intro applicationMessage _
    exact caught_ok _

/-- Whether there is a decoder for a packet type. -/
def supported (type : PacketType) : Bool :=
  match type with
  | .connack | .suback | .unsuback | .pingresp | .reserved1 | .reserved2 => false
  | _ => true

/-- The protocol level or the flags of a CONNECT lie behind the end of the buffer. -/
def RunsOut (buffer : Bytes) (frame : Frame) : Prop :=
  frame.type = .connect ∧
    ∃ pos name, decodeProtocolName buffer frame = .ok (pos, name) ∧ buffer.length < pos + 2

/-- Decoding a frame is left to the decoder for its type. -/
theorem decode_eq {type : PacketType} {decoder : Bytes → Frame → Except Fault MqttPacket}
    (htype : frame.type = type) (hdecoder : bodyDecoderFor type = .ok decoder) :
    decode buffer frame = decoder buffer frame := by
  unfold decode
  rw [htype, hdecoder]
  rfl

/-- Frames of the supported types other than CONNECT are decoded without an uncaught
failure. -/
theorem caught_decode_of_supported (hend : frame.endPos ≤ buffer.length)
    (hsupported : supported frame.type = true) (hne : frame.type ≠ .connect) :
    Caught (decode buffer frame) := by
  cases htype : frame.type with
  | connect => exact absurd htype hne
  | connack | suback | unsuback | pingresp | reserved1 | reserved2 =>
      rw [htype] at hsupported
      cases hsupported
  | pingreq =>
      rw [decode_eq htype rfl]
      exact caught_decodeEmpty htype
  | disconnect =>
      rw [decode_eq htype rfl]
      exact caught_decodeEmpty htype
  | puback =>
      rw [decode_eq htype rfl]
      exact caught_decodeAck hend htype
  | pubrec =>
      rw [decode_eq htype rfl]
      exact caught_decodeAck hend htype
  | pubrel =>
      rw [decode_eq htype rfl]
      exact caught_decodeAck hend htype
  | pubcomp =>
      rw [decode_eq htype rfl]
      exact caught_decodeAck hend htype
  | subscribe =>
      rw [decode_eq htype rfl]
      exact caught_decodeSubscribe hend htype
  | unsubscribe =>
      rw [decode_eq htype rfl]
      exact caught_decodeUnsubscribe hend htype
  | publish =>
      rw [decode_eq htype rfl]
      exact caught_decodePublish hend htype

/-- A frame of another type makes the decoder throw {lit}`std::invalid_argument`. -/
theorem decode_of_not_supported (h : supported frame.type = false) :
    decode buffer frame =
      .error (.invalidArgument "Unsupported MQTT control packet type") := by
  unfold decode
  cases htype : frame.type with
  | connack | suback | unsuback | pingresp | reserved1 | reserved2 => rfl
  | connect | pingreq | disconnect | puback | pubrec | pubrel | pubcomp | subscribe
  | unsubscribe | publish =>
      rw [htype] at h
      cases h

/-- Decoding a frame raises nothing but {lit}`malformed_mqtt_packet`, unless its type
is not supported or the decoder of CONNECT packets runs out of the buffer. -/
theorem caught_decode_iff (hend : frame.endPos ≤ buffer.length) :
    Caught (decode buffer frame) ↔
      supported frame.type = true ∧ ¬ RunsOut buffer frame := by
  cases hsupported : supported frame.type with
  | false =>
      rw [decode_of_not_supported hsupported]
      simp
  | true =>
      by_cases htype : frame.type = .connect
      · rw [decode_eq htype rfl, caught_decodeConnect_iff hend htype]
        constructor
        · intro hinside
          refine ⟨rfl, ?_⟩
          rintro ⟨-, pos, name, hname, hout⟩
          have hroom := hinside pos name hname
          omega
        · rintro ⟨-, hout⟩ pos name hname
          by_contra hroom
          exact hout ⟨htype, pos, name, hname, by omega⟩
      · have hcaught := caught_decode_of_supported hend hsupported htype
        have hinside : ¬ RunsOut buffer frame := fun hout => htype hout.1
        simp [hcaught, hinside]

/-! ## What the decoders return -/

theorem supported_publishAck (ack : PublishAck) :
    supported (MqttPacket.publishAck ack).type = true := by
  cases ack <;> rfl

theorem supported_of_decodeAck {type : PacketType} {flags : UInt8} {what : String}
    {ack : UInt16 → PublishAck} {packet : MqttPacket}
    (h : decodeAck type flags what ack buffer frame = .ok packet) :
    supported packet.type = true := by
  rcases bind_eq_ok_iff.mp h with ⟨_, -, hflags⟩
  rcases bind_eq_ok_iff.mp hflags with ⟨_, -, hid⟩
  rcases bind_eq_ok_iff.mp hid with ⟨⟨_, packetId⟩, -, hresult⟩
  cases hresult
  exact supported_publishAck _

theorem eq_of_decodeEmpty {type : PacketType} {whatFlags whatLength : String}
    {packet packet' : MqttPacket}
    (h : decodeEmpty type whatFlags whatLength packet frame = .ok packet') :
    packet' = packet := by
  rcases bind_eq_ok_iff.mp h with ⟨_, -, hflags⟩
  rcases bind_eq_ok_iff.mp hflags with ⟨_, -, hlength⟩
  rcases bind_eq_ok_iff.mp hlength with ⟨_, -, hresult⟩
  cases hresult
  rfl

theorem supported_of_decodeConnect {packet : MqttPacket}
    (h : decodeConnect buffer frame = .ok packet) : supported packet.type = true := by
  rcases bind_eq_ok_iff.mp h with ⟨⟨pos, name⟩, -, hlevel⟩
  rcases bind_eq_ok_iff.mp hlevel with ⟨level, -, hflags⟩
  rcases bind_eq_ok_iff.mp hflags with ⟨flags, -, hpayload⟩
  rcases bind_eq_ok_iff.mp hpayload with ⟨_, -, hclient⟩
  rcases bind_eq_ok_iff.mp hclient with ⟨_, -, hwill⟩
  rcases bind_eq_ok_iff.mp hwill with ⟨_, -, husername⟩
  rcases bind_eq_ok_iff.mp husername with ⟨_, -, hpassword⟩
  rcases bind_eq_ok_iff.mp hpassword with ⟨_, -, hsize⟩
  rcases bind_eq_ok_iff.mp hsize with ⟨_, -, hresult⟩
  cases hresult
  rfl

theorem supported_of_decodeSubscribe {packet : MqttPacket}
    (h : decodeSubscribe buffer frame = .ok packet) : supported packet.type = true := by
  rcases bind_eq_ok_iff.mp h with ⟨_, -, hflags⟩
  rcases bind_eq_ok_iff.mp hflags with ⟨_, -, hid⟩
  rcases bind_eq_ok_iff.mp hid with ⟨⟨_, packetId⟩, -, hitems⟩
  rcases bind_eq_ok_iff.mp hitems with ⟨subscriptions, -, hsome⟩
  rcases bind_eq_ok_iff.mp hsome with ⟨_, -, hresult⟩
  cases hresult
  rfl

theorem supported_of_decodeUnsubscribe {packet : MqttPacket}
    (h : decodeUnsubscribe buffer frame = .ok packet) : supported packet.type = true := by
  rcases bind_eq_ok_iff.mp h with ⟨_, -, hflags⟩
  rcases bind_eq_ok_iff.mp hflags with ⟨_, -, hid⟩
  rcases bind_eq_ok_iff.mp hid with ⟨⟨_, packetId⟩, -, hitems⟩
  rcases bind_eq_ok_iff.mp hitems with ⟨topicFilters, -, hsome⟩
  rcases bind_eq_ok_iff.mp hsome with ⟨_, -, hresult⟩
  cases hresult
  rfl

theorem supported_of_decodePublish {packet : MqttPacket}
    (h : decodePublish buffer frame = .ok packet) : supported packet.type = true := by
  unfold decodePublish at h
  split at h
  · rcases bind_eq_ok_iff.mp h with ⟨_, -, hqos⟩
    rcases bind_eq_ok_iff.mp hqos with ⟨_, -, hname⟩
    rcases bind_eq_ok_iff.mp hname with ⟨⟨_, topicName⟩, -, hcheck⟩
    rcases bind_eq_ok_iff.mp hcheck with ⟨_, -, hid⟩
    rcases bind_eq_ok_iff.mp hid with ⟨⟨_, packetId⟩, -, hmessage⟩
    rcases bind_eq_ok_iff.mp hmessage with ⟨message, -, hresult⟩
    cases hresult
    rfl
  · cases h

/-- Only packets of supported types are decoded. -/
theorem supported_of_decode {packet : MqttPacket} (h : decode buffer frame = .ok packet) :
    supported packet.type = true := by
  cases htype : frame.type with
  | connack | suback | unsuback | pingresp | reserved1 | reserved2 =>
      rw [decode_of_not_supported (by rw [htype]; rfl)] at h
      cases h
  | connect =>
      rw [decode_eq htype rfl] at h
      exact supported_of_decodeConnect h
  | pingreq =>
      rw [decode_eq htype rfl] at h
      rw [eq_of_decodeEmpty h]
      rfl
  | disconnect =>
      rw [decode_eq htype rfl] at h
      rw [eq_of_decodeEmpty h]
      rfl
  | puback =>
      rw [decode_eq htype rfl] at h
      exact supported_of_decodeAck h
  | pubrec =>
      rw [decode_eq htype rfl] at h
      exact supported_of_decodeAck h
  | pubrel =>
      rw [decode_eq htype rfl] at h
      exact supported_of_decodeAck h
  | pubcomp =>
      rw [decode_eq htype rfl] at h
      exact supported_of_decodeAck h
  | subscribe =>
      rw [decode_eq htype rfl] at h
      exact supported_of_decodeSubscribe h
  | unsubscribe =>
      rw [decode_eq htype rfl] at h
      exact supported_of_decodeUnsubscribe h
  | publish =>
      rw [decode_eq htype rfl] at h
      exact supported_of_decodePublish h

end Codec
end WallyIo
