import WallyIo.Codec.FrameReader
import WallyIo.Protocol.Packet

/-!
# Encoding packets

Packets are encoded through an iterator into a vector that has been given the total
length of the packet before.  Writing at the end of the vector has no meaning.

Main results:

- Theorem {lit}`encodeRemainingLength_eq`: remaining lengths are written to the base
  128, as far as they are allowed.
- Theorem {lit}`encodeBody_eq`: what the encoders of bodies write.
- Theorem {lit}`encode_eq`: a packet that the server sends is encoded as fixed header and
  body, and fills the vector.
- Theorem {lit}`headerOf_encoding`: a frame reader finds header and body in it.
-/

namespace WallyIo
namespace Codec

open Protocol
open Library

/-! ## Writing into a vector -/

/-- An iterator into a vector of a given size: the bytes that have been written through
it since the beginning of the vector. -/
structure OutputIterator (size : Nat) where
  written : Bytes
  fits : written.length ≤ size
deriving DecidableEq, Repr

namespace OutputIterator

variable {size : Nat}

/-- The beginning of the vector. -/
def start (size : Nat) : OutputIterator size := ⟨[], Nat.zero_le _⟩

/-- The number of elements that are left. -/
def room (it : OutputIterator size) : Nat := size - it.written.length

/-- Write a byte and advance. -/
def put (it : OutputIterator size) (byte : UInt8) : Except Fault (OutputIterator size) :=
  if h : it.written.length < size then
    .ok ⟨it.written ++ [byte], by
      rw [List.length_append]
      exact h⟩
  else .error .undefinedBehaviour

/-- Write a sequence of bytes. -/
def putAll (it : OutputIterator size) : Bytes → Except Fault (OutputIterator size)
  | [] => .ok it
  | byte :: rest => do
      let it ← it.put byte
      it.putAll rest

/-- Sequences are written one after another. -/
theorem putAll_append (it : OutputIterator size) (xs ys : Bytes) :
    it.putAll (xs ++ ys) = it.putAll xs >>= fun it => it.putAll ys := by
  induction xs generalizing it with
  | nil => rfl
  | cons x xs ih =>
      simp only [List.cons_append, putAll]
      cases it.put x with
      | error failure => rfl
      | ok it' => exact ih it'

/-- A sequence is written if there is room for it. -/
theorem putAll_eq (it : OutputIterator size) (xs : Bytes) :
    it.putAll xs =
      if h : it.written.length + xs.length ≤ size then
        .ok ⟨it.written ++ xs, by rwa [List.length_append]⟩
      else .error .undefinedBehaviour := by
  induction xs generalizing it with
  | nil => simp [putAll, it.fits]
  | cons x xs ih =>
      by_cases hroom : it.written.length < size
      · simp only [putAll, put, dif_pos hroom, bind, Except.bind]
        rw [ih]
        simp only [List.length_append, List.append_assoc, List.singleton_append,
          List.length_cons, List.length_nil, Nat.zero_add, Nat.add_assoc, Nat.add_comm 1]
      · simp only [putAll, put, dif_neg hroom, bind, Except.bind]
        rw [dif_neg]
        rw [List.length_cons]
        omega

theorem putAll_of_le {it : OutputIterator size} {xs : Bytes}
    (h : it.written.length + xs.length ≤ size) :
    it.putAll xs = .ok ⟨it.written ++ xs, by rwa [List.length_append]⟩ := by
  rw [putAll_eq, dif_pos h]

theorem le_room_iff (it : OutputIterator size) (k : Nat) :
    k ≤ it.room ↔ it.written.length + k ≤ size := by
  have hfits := it.fits
  rw [room]
  omega

/-- What has been written then. -/
theorem written_putAll (it : OutputIterator size) (xs : Bytes) :
    (it.putAll xs).map written =
      if xs.length ≤ it.room then .ok (it.written ++ xs) else .error .undefinedBehaviour := by
  rw [putAll_eq]
  by_cases hroom : it.written.length + xs.length ≤ size
  · rw [dif_pos hroom, if_pos ((it.le_room_iff _).mpr hroom)]
    rfl
  · rw [dif_neg hroom, if_neg (fun hle => hroom ((it.le_room_iff _).mp hle))]
    rfl

end OutputIterator

variable {size : Nat}

/-! ## Fields -/

/-- The loop over the digits of a remaining length, of which 32 bits have no more than
five. -/
def encodeRemainingLengthLoop :
    Nat → UInt32 → OutputIterator size → Except Fault (OutputIterator size)
  | 0, _, _ => .error .undefinedBehaviour
  | fuel + 1, remainingLength, it => do
      let rest := remainingLength % 0x80
      let remainingLength := remainingLength / 0x80
      let current := if remainingLength > 0 then rest ||| 0x80 else rest
      let it ← it.put current.toUInt8
      if remainingLength > 0 then encodeRemainingLengthLoop fuel remainingLength it
      else .ok it

/-- Encode a remaining length. -/
def encodeRemainingLength (remainingLength : UInt32) (it : OutputIterator size) :
    Except Fault (OutputIterator size) := do
  let it' ← encodeRemainingLengthLoop 5 remainingLength it
  if it'.written.length - it.written.length > 4 then
    .error (.malformedMqttPacket "Supplied remaining_length greater than allowed maximum")
  else .ok it'

/-- Encode an integer of 16 bits. -/
def encodeUint16 (value : UInt16) (it : OutputIterator size) :
    Except Fault (OutputIterator size) := do
  let msb := value / 0x0100
  let lsb := value % 0x0100
  let it ← it.put msb.toUInt8
  it.put lsb.toUInt8

/-- The length that a string may have. -/
def maxStringLength : UInt16 := 0x00FF * 0x0100 + 0xFF

/-- Encode a string behind its length. -/
def encodeUtf8String (value : Bytes) (it : OutputIterator size) :
    Except Fault (OutputIterator size) :=
  if value.length > maxStringLength.toNat then
    .error (.malformedMqttPacket "Supplied UTF-8 string is longer than allowed maximum")
  else do
    let it ← encodeUint16 (UInt16.ofNat value.length) it
    it.putAll value

/-- Encode the header of a packet. -/
def encodeFixedHeader (typeAndFlags : UInt8) (remainingLength : UInt32)
    (it : OutputIterator size) : Except Fault (OutputIterator size) := do
  let it ← it.put typeAndFlags
  encodeRemainingLength remainingLength it

/-! ## Packets -/

/-- Packet type and flags of a packet. -/
def typeAndFlagsOf : MqttPacket → UInt8
  | .connect _ => 0x10
  | .connack _ => typeInto .connack 0x00
  | .publish publish => publish.typeAndFlags
  | .publishAck ack => ack.typeAndFlags
  | .subscribe _ => 0x82
  | .suback _ => typeInto .suback 0x00
  | .unsubscribe _ => 0xA2
  | .unsuback _ => typeInto .unsuback 0x00
  | .pingreq => 0xC0
  | .pingresp => 0xD0
  | .disconnect => 0xE0

/-- The remaining length of a packet. -/
def remainingLengthOf : MqttPacket → UInt32
  | .connect connect => connect.remainingLength
  | .connack _ => 2
  | .publish publish => publish.remainingLength
  | .publishAck _ => 2
  | .subscribe subscribe => subscribe.remainingLength
  | .suback suback => suback.remainingLength
  | .unsubscribe unsubscribe => unsubscribe.remainingLength
  | .unsuback _ => 2
  | .pingreq => 0
  | .pingresp => 0
  | .disconnect => 0

/-- The length of a packet on the wire. -/
def totalLengthOf (packet : MqttPacket) : Nat :=
  (totalLength (remainingLengthOf packet)).toNat

/-- Encode the body of a CONNACK. -/
def encodeConnack (connack : Connack) (it : OutputIterator size) :
    Except Fault (OutputIterator size) := do
  let firstByte : UInt8 := if connack.sessionPresent then 0x01 else 0x00
  let secondByte := connack.returnCode.toUInt8
  let it ← it.put firstByte
  it.put secondByte

/-- The loop over the return codes of a SUBACK. -/
def encodeReturnCodes : List SubackReturnCode → OutputIterator size →
    Except Fault (OutputIterator size)
  | [], it => .ok it
  | rc :: rest, it => do
      assert (rc != .reserved)
      let it ← it.put rc.toUInt8
      encodeReturnCodes rest it

/-- Encode the body of a SUBACK. -/
def encodeSuback (suback : Suback) (it : OutputIterator size) :
    Except Fault (OutputIterator size) := do
  let it ← encodeUint16 suback.packetIdentifier it
  encodeReturnCodes suback.returnCodes it

/-- Encode the body of a PUBLISH. -/
def encodePublish (publish : Publish) (it : OutputIterator size) :
    Except Fault (OutputIterator size) := do
  let it ← encodeUtf8String publish.topic it
  let it ← if publish.qos ≠ .atMostOnce then encodeUint16 publish.packetIdentifier it
    else .ok it
  it.putAll publish.applicationMessage

/-- Encode a body with the encoder for the type of the packet. -/
def encodeBody : MqttPacket → OutputIterator size → Except Fault (OutputIterator size)
  | .connack connack, it => encodeConnack connack it
  | .pingresp, it => .ok it
  | .suback suback, it => encodeSuback suback it
  | .unsuback unsuback, it => encodeUint16 unsuback.packetIdentifier it
  | .publish publish, it => encodePublish publish it
  | .publishAck ack, it => encodeUint16 ack.packetIdentifier it
  | .connect _, _ | .pingreq, _ | .disconnect, _ | .subscribe _, _ | .unsubscribe _, _ =>
      .error .assertion

/-- Encode a packet. -/
def encode (packet : MqttPacket) (it : OutputIterator size) :
    Except Fault (OutputIterator size) := do
  let it ← encodeFixedHeader (typeAndFlagsOf packet) (remainingLengthOf packet) it
  assert ((remainingLengthOf packet).toNat ≤ it.room)
  encodeBody packet it

/-- What a packet is encoded as: the contents of a vector of its total length, which
consists of zeros before. -/
def encoding (packet : MqttPacket) : Except Fault Bytes := do
  let it ← encode packet (.start (totalLengthOf packet))
  .ok (it.written ++ List.replicate it.room 0x00)

/-! ## What is written -/

variable {it : OutputIterator size}

/-- The two bytes of an integer. -/
def uint16Bytes (value : UInt16) : Bytes :=
  [(value / 0x0100).toUInt8, (value % 0x0100).toUInt8]

theorem encodeUint16_eq (value : UInt16) (it : OutputIterator size) :
    encodeUint16 value it = it.putAll (uint16Bytes value) := by
  unfold encodeUint16 uint16Bytes
  simp only [OutputIterator.putAll]
  cases it.put (value / 0x0100).toUInt8 with
  | error failure => rfl
  | ok it' =>
      simp only [bind, Except.bind]
      cases it'.put (value % 0x0100).toUInt8 <;> rfl

/-- A string of legal length is written behind its length. -/
theorem encodeUtf8String_eq {value : Bytes} (h : value.length ≤ 65535)
    (it : OutputIterator size) : encodeUtf8String value it =
      it.putAll (uint16Bytes (UInt16.ofNat value.length) ++ value) := by
  have hmax : ¬ value.length > maxStringLength.toNat := by
    have hvalue : maxStringLength.toNat = 65535 := by decide
    omega
  rw [encodeUtf8String, if_neg hmax, encodeUint16_eq, OutputIterator.putAll_append]

/-- Return codes are written as they are, unless one of them is reserved. -/
theorem encodeReturnCodes_eq {codes : List SubackReturnCode}
    (h : SubackReturnCode.reserved ∉ codes) (it : OutputIterator size) :
    encodeReturnCodes codes it = it.putAll (codes.map SubackReturnCode.toUInt8) := by
  induction codes generalizing it with
  | nil => rfl
  | cons rc rest ih =>
      rw [List.mem_cons, not_or] at h
      have hrc : (rc != .reserved) = true := by
        rw [bne_iff_ne]
        exact Ne.symm h.1
      rw [encodeReturnCodes, hrc, List.map_cons, OutputIterator.putAll]
      simp only [assert_true, bind, Except.bind]
      cases it.put rc.toUInt8 with
      | error failure => rfl
      | ok it' => exact ih h.2 it'

/-- The byte that the loop writes for a digit. -/
theorem current_eq (n : UInt32) :
    (n % 0x80).toUInt8 = UInt8.ofNat (n.toNat % 128) ∧
      (n % 0x80 ||| 0x80).toUInt8 = UInt8.ofNat (n.toNat % 128) ||| 0x80 := by
  have hdigit : (n % 0x80).toUInt8 = UInt8.ofNat (n.toNat % 128) := by
    apply UInt8.toNat_inj.mp
    rw [UInt32.toNat_toUInt8, UInt32.toNat_mod, UInt8.toNat_ofNat']
    rfl
  refine ⟨hdigit, ?_⟩
  rw [UInt32.toUInt8_or, hdigit]
  rfl

/-- The loop writes a number that has no more digits than it may run. -/
theorem encodeRemainingLengthLoop_eq {fuel : Nat} {n : UInt32}
    (h : n.toNat < 128 ^ (fuel + 1)) (it : OutputIterator size) :
    encodeRemainingLengthLoop (fuel + 1) n it = it.putAll (Base128.encode n.toNat) := by
  induction fuel generalizing n it with
  | zero =>
      have hzero : ¬ n / 0x80 > 0 := by
        rw [gt_iff_lt, UInt32.lt_iff_toNat_lt, UInt32.toNat_div]
        simp only [UInt32.reduceToNat]
        omega
      rw [Base128.encode_of_lt (by omega), encodeRemainingLengthLoop]
      simp only [if_neg hzero, (current_eq n).1, OutputIterator.putAll]
      rw [Nat.mod_eq_of_lt (by omega)]
  | succ fuel ih =>
      have hdiv : (n / 0x80).toNat = n.toNat / 128 := by
        rw [UInt32.toNat_div]
        rfl
      by_cases hlt : n.toNat < 128
      · have hzero : ¬ n / 0x80 > 0 := by
          rw [gt_iff_lt, UInt32.lt_iff_toNat_lt, hdiv]
          simp only [UInt32.reduceToNat]
          omega
        rw [Base128.encode_of_lt hlt, encodeRemainingLengthLoop]
        simp only [if_neg hzero, (current_eq n).1, OutputIterator.putAll]
        rw [Nat.mod_eq_of_lt hlt]
      · have hpos : n / 0x80 > 0 := by
          rw [gt_iff_lt, UInt32.lt_iff_toNat_lt, hdiv]
          simp only [UInt32.reduceToNat]
          omega
        have hsmaller : (n / 0x80).toNat < 128 ^ (fuel + 1) := by
          have hpow : (128 : Nat) ^ (fuel + 1 + 1) = 128 ^ (fuel + 1) * 128 := Nat.pow_succ ..
          rw [hdiv, Nat.div_lt_iff_lt_mul (by decide)]
          omega
        rw [Base128.encode_of_le (by omega), encodeRemainingLengthLoop]
        simp only [if_pos hpos, (current_eq n).2, OutputIterator.putAll]
        cases it.put (UInt8.ofNat (n.toNat % 128) ||| 0x80) with
        | error failure => rfl
        | ok it' =>
            have hrest := ih hsmaller it'
            rw [hdiv] at hrest
            exact hrest

/-- The bytes that are written are counted afterwards. -/
theorem encodeRemainingLength_eq_bind (n : UInt32) (it : OutputIterator size) :
    encodeRemainingLength n it =
      it.putAll (Base128.encode n.toNat) >>= fun it' =>
        if n ≤ maxAllowedPacketLength then .ok it'
        else .error (.malformedMqttPacket
          "Supplied remaining_length greater than allowed maximum") := by
  have hfive : n.toNat < 128 ^ (4 + 1) := by
    have hlt := n.toNat_lt
    omega
  have hcount : (Base128.encode n.toNat).length > 4 ↔ ¬ n ≤ maxAllowedPacketLength := by
    rw [gt_iff_lt, ← Nat.not_le, Base128.length_encode_le_iff n.toNat 3,
      le_maxAllowedPacketLength_iff]
    omega
  rw [encodeRemainingLength, encodeRemainingLengthLoop_eq hfive, OutputIterator.putAll_eq]
  by_cases hroom : it.written.length + (Base128.encode n.toNat).length ≤ size
  · simp only [dif_pos hroom, bind, Except.bind, List.length_append, Nat.add_sub_cancel_left,
      hcount, ite_not]
  · simp only [dif_neg hroom, bind, Except.bind]

/-- A remaining length that is allowed is written to the base 128. -/
theorem encodeRemainingLength_eq {n : UInt32} (h : n ≤ maxAllowedPacketLength)
    (it : OutputIterator size) :
    encodeRemainingLength n it = it.putAll (Base128.encode n.toNat) := by
  rw [encodeRemainingLength_eq_bind]
  simp only [if_pos h]
  cases it.putAll (Base128.encode n.toNat) <;> rfl

/-- One that is larger than allowed is refused behind its five bytes. -/
theorem encodeRemainingLength_of_gt {n : UInt32} (h : maxAllowedPacketLength < n)
    (it : OutputIterator size) :
    encodeRemainingLength n it =
      if 5 ≤ it.room then .error (.malformedMqttPacket
        "Supplied remaining_length greater than allowed maximum")
      else .error .undefinedBehaviour := by
  have hnot : ¬ n ≤ maxAllowedPacketLength := UInt32.not_le.mpr h
  have hlength : (Base128.encode n.toNat).length = 5 := by
    have hlower := Base128.length_encode_le_iff n.toNat 3
    have hupper := Base128.length_encode_le_iff n.toNat 4
    have hlt := n.toNat_lt
    rw [le_maxAllowedPacketLength_iff] at hnot
    omega
  have hroom := it.le_room_iff 5
  rw [encodeRemainingLength_eq_bind, OutputIterator.putAll_eq]
  by_cases hfive : 5 ≤ it.room
  · rw [dif_pos (by omega), if_pos hfive]
    exact if_neg hnot
  · rw [dif_neg (by omega), if_neg hfive]
    rfl

/-! ## The packets that a server sends -/

/-- The body of a packet that a server sends. -/
def bodyOf : MqttPacket → Bytes
  | .connack connack => [if connack.sessionPresent then 0x01 else 0x00,
      connack.returnCode.toUInt8]
  | .suback suback => uint16Bytes suback.packetIdentifier ++
      suback.returnCodes.map SubackReturnCode.toUInt8
  | .unsuback unsuback => uint16Bytes unsuback.packetIdentifier
  | .publish publish => uint16Bytes (UInt16.ofNat publish.topic.length) ++ publish.topic ++
      (if publish.qos ≠ .atMostOnce then uint16Bytes publish.packetIdentifier else []) ++
        publish.applicationMessage
  | .publishAck ack => uint16Bytes ack.packetIdentifier
  | .pingresp | .connect _ | .subscribe _ | .unsubscribe _ | .pingreq | .disconnect => []

/-- What the encoders of bodies rely on. -/
def BodyEncodable : MqttPacket → Prop
  | .connack _ | .unsuback _ | .publishAck _ | .pingresp => True
  | .suback suback => SubackReturnCode.reserved ∉ suback.returnCodes
  | .publish publish => publish.topic.length ≤ 65535
  | .connect _ | .subscribe _ | .unsubscribe _ | .pingreq | .disconnect => False

/-- A packet that a server sends: its remaining length is that of its body. -/
structure Encodable (packet : MqttPacket) : Prop where
  body : BodyEncodable packet
  allowed : remainingLengthOf packet ≤ maxAllowedPacketLength
  announced : (remainingLengthOf packet).toNat = (bodyOf packet).length

/-- The encoders of bodies write the body. -/
theorem encodeBody_eq {packet : MqttPacket} (h : BodyEncodable packet)
    (it : OutputIterator size) : encodeBody packet it = it.putAll (bodyOf packet) := by
  cases packet with
  | connack connack =>
      simp only [encodeBody, encodeConnack, bodyOf, OutputIterator.putAll]
      cases it.put (if connack.sessionPresent = true then 0x01 else 0x00) with
      | error failure => rfl
      | ok it' =>
          simp only [bind, Except.bind]
          cases it'.put connack.returnCode.toUInt8 <;> rfl
  | suback suback =>
      rw [bodyOf, OutputIterator.putAll_append, ← encodeUint16_eq, encodeBody, encodeSuback]
      congr 1
      funext it'
      exact encodeReturnCodes_eq h it'
  | unsuback unsuback => exact encodeUint16_eq _ it
  | publish publish =>
      rw [bodyOf, OutputIterator.putAll_append, OutputIterator.putAll_append,
        ← encodeUtf8String_eq h, encodeBody, encodePublish]
      cases encodeUtf8String publish.topic it with
      | error failure => rfl
      | ok it' =>
          simp only [bind, Except.bind]
          split
          · rw [encodeUint16_eq]
          · rfl
  | publishAck ack => exact encodeUint16_eq _ it
  | pingresp => rfl
  | connect _ => exact h.elim
  | subscribe _ => exact h.elim
  | unsubscribe _ => exact h.elim
  | pingreq => exact h.elim
  | disconnect => exact h.elim

/-- The fixed header has the length that the total length of a packet allows for. -/
theorem length_encode_remainingLength {n : UInt32} (h : n ≤ maxAllowedPacketLength) :
    (Base128.encode n.toNat).length = remLengthBytes n := by
  have hone := Base128.length_encode_le_iff n.toNat 0
  have htwo := Base128.length_encode_le_iff n.toNat 1
  have hthree := Base128.length_encode_le_iff n.toNat 2
  have hfour := Base128.length_encode_le_iff n.toNat 3
  have hpos := (Base128.encode_spec n.toNat).1.length_pos
  have hbound := le_maxAllowedPacketLength_iff.mp h
  unfold remLengthBytes
  simp only [UInt32.le_iff_toNat_le, UInt32.reduceToNat]
  split
  · omega
  · split
    · omega
    · split <;> omega

variable {packet : MqttPacket}

/-- A packet that a server sends as it is seen by the peer. -/
def Encodable.wirePacket (h : Encodable packet) : WirePacket where
  typeAndFlags := typeAndFlagsOf packet
  lengthBytes := Base128.encode (remainingLengthOf packet).toNat
  body := bodyOf packet
  terminated := (Base128.encode_spec _).1
  atMostFour := by
    rw [length_encode_remainingLength h.allowed]
    exact (remLengthBytes_bounds _).2
  announced := (Base128.encode_spec _).2.trans h.announced

/-- The length of a packet on the wire is its total length. -/
theorem Encodable.length_bytes (h : Encodable packet) :
    h.wirePacket.bytes.length = totalLengthOf packet := by
  have hlength := length_encode_remainingLength h.allowed
  have hannounced := h.announced
  rw [WirePacket.length_bytes, totalLengthOf, totalLength_toNat h.allowed]
  simp only [WirePacket.headerLength, Encodable.wirePacket]
  omega

/-- The fixed header is written in front of the body. -/
theorem encodeFixedHeader_eq {n : UInt32} (h : n ≤ maxAllowedPacketLength) (typeAndFlags : UInt8)
    (it : OutputIterator size) :
    encodeFixedHeader typeAndFlags n it = it.putAll (typeAndFlags :: Base128.encode n.toNat) := by
  rw [encodeFixedHeader, OutputIterator.putAll]
  congr 1
  funext it'
  exact encodeRemainingLength_eq h it'

/-- A packet is written as header and body wherever there is room for it. -/
theorem encode_eq_putAll (h : Encodable packet)
    (hroom : it.written.length + totalLengthOf packet ≤ size) :
    encode packet it = it.putAll h.wirePacket.bytes := by
  have hannounced := h.announced
  have htotal := h.length_bytes
  have hbytes : h.wirePacket.bytes =
      (typeAndFlagsOf packet :: Base128.encode (remainingLengthOf packet).toNat) ++
        bodyOf packet := rfl
  rw [hbytes, List.length_append, List.length_cons] at htotal
  rw [hbytes, OutputIterator.putAll_append, encode, encodeFixedHeader_eq h.allowed,
    OutputIterator.putAll_of_le (by rw [List.length_cons]; omega)]
  simp only [bind, Except.bind]
  rw [decide_eq_true, assert_true]
  · exact encodeBody_eq h.body _
  · simp only [OutputIterator.room, List.length_append, List.length_cons]
    omega

/-- A packet is encoded as header and body, which fill the vector. -/
theorem encode_eq (h : Encodable packet) :
    encode packet (.start (totalLengthOf packet)) =
      .ok ⟨h.wirePacket.bytes, Nat.le_of_eq h.length_bytes⟩ := by
  have hroom : (OutputIterator.start (totalLengthOf packet)).written.length +
      totalLengthOf packet ≤ totalLengthOf packet := by
    simp only [OutputIterator.start, List.length_nil]
    omega
  rw [encode_eq_putAll h hroom, OutputIterator.putAll_of_le]
  · rfl
  · exact Nat.le_of_eq (by rw [h.length_bytes]; exact Nat.zero_add _)

/-- Nothing but the packet stands in the vector. -/
theorem encoding_eq (h : Encodable packet) : encoding packet = .ok h.wirePacket.bytes := by
  have hroom : totalLengthOf packet - h.wirePacket.bytes.length = 0 := by
    rw [h.length_bytes, Nat.sub_self]
  rw [encoding, encode_eq h]
  simp only [bind, Except.bind, OutputIterator.room, hroom, List.replicate_zero,
    List.append_nil]

/-- A frame reader finds header and body in what has been encoded. -/
theorem headerOf_encoding (h : Encodable packet) (rest : Bytes) :
    ∃ bytes, encoding packet = .ok bytes ∧
      headerOf (bytes ++ rest) =
        .complete h.wirePacket.headerLength (bodyOf packet).length :=
  ⟨_, encoding_eq h, h.wirePacket.headerOf_bytes rest⟩

end Codec
end WallyIo
