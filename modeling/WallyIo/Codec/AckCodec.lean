import WallyIo.Codec.Fields
import Mathlib.Tactic.IntervalCases

/-!
# Decoding acknowledgements

PUBACK, PUBREC, PUBREL and PUBCOMP consist of a packet identifier.  Their decoders check the
flags, but not whether the identifier is all there is.

Main results:

- Theorem {lit}`typeInto_typeOf`: a byte is made of its packet type and its flags.
- Theorem {lit}`decode_ack_eq_ok_iff`: which acknowledgement is decoded from which frame.
- Theorem {lit}`ack_inverse_iff`: when decoding an acknowledgement and encoding it are
  inverse.
-/

namespace WallyIo
namespace Codec

open Protocol
open Library FieldReader

variable {buffer : Bytes} {frame : Frame} {packet : MqttPacket}

/-! ## Type and flags -/

/-- The upper half of a byte is read back from its number. -/
theorem shiftLeft_upper (byte : UInt8) : ((byte &&& 0xF0) >>> 4) <<< 4 = byte &&& 0xF0 := by
  apply UInt8.toBitVec_inj.mp
  change ((byte.toBitVec &&& 0xF0#8) >>> 4) <<< 4 = byte.toBitVec &&& 0xF0#8
  rw [BitVec.shiftLeft_ushiftRight, BitVec.and_assoc]
  rfl

/-- The packet type stands for the upper half. -/
theorem mask_typeOf (byte : UInt8) : (typeOf byte).mask = byte &&& 0xF0 := by
  have hupper : ((byte &&& 0xF0) >>> 4).toNat < 16 := by
    have hlt := (byte &&& 0xF0).toNat_lt
    rw [UInt8.toNat_shiftRight]
    change (byte &&& 0xF0).toNat >>> 4 < 16
    rw [Nat.shiftRight_eq_div_pow]
    omega
  rw [← shiftLeft_upper, typeOf]
  generalize (byte &&& 0xF0) >>> 4 = upper at hupper
  rw [← @UInt8.ofNat_toNat upper]
  generalize upper.toNat = n at hupper
  interval_cases n <;> rfl

/-- A byte is made of its packet type and its flags. -/
theorem typeInto_typeOf (byte : UInt8) : typeInto (typeOf byte) byte = byte := by
  rw [typeInto, mask_typeOf]
  apply UInt8.toBitVec_inj.mp
  change (byte.toBitVec &&& 0x0F#8) ||| (byte.toBitVec &&& 0xF0#8) = byte.toBitVec
  rw [← BitVec.and_or_distrib_left]
  exact BitVec.and_allOnes

/-- The flags stand in the lower half. -/
theorem flags_typeInto (type : PacketType) (flags : UInt8) :
    typeInto type flags &&& 0x0F = flags &&& 0x0F := by
  rw [typeInto]
  refine select_kept rfl ?_
  cases type <;> rfl

/-- Which bytes consist of a packet type and flags. -/
theorem eq_typeInto_iff {byte flags : UInt8} {type : PacketType} (hflags : flags &&& 0x0F = flags) :
    byte = typeInto type flags ↔ typeOf byte = type ∧ byte &&& 0x0F = flags := by
  constructor
  · rintro rfl
    exact ⟨typeOf_typeInto type flags, (flags_typeInto type flags).trans hflags⟩
  · rintro ⟨rfl, rfl⟩
    have hbyte := typeInto_typeOf byte
    rw [typeInto] at hbyte ⊢
    rw [hflags, hbyte]

/-! ## Decoding -/

/-- The packet types of the acknowledgements. -/
def ackTypes : List PacketType := [.puback, .pubrec, .pubrel, .pubcomp]

/-- A decoder of acknowledgements accepts the flags of its type and an identifier, whatever
stands behind it. -/
theorem decodeAck_eq_ok_iff {type : PacketType} {flags : UInt8} {what : String}
    {make : UInt16 → PublishAck} (hflags : flags &&& 0x0F = flags)
    (hend : frame.endPos ≤ buffer.length) :
    decodeAck type flags what make buffer frame = .ok packet ↔
      frame.typeAndFlags = typeInto type flags ∧ ∃ packetIdentifier rest,
        frame.body buffer = uint16Bytes packetIdentifier ++ rest ∧
          packet = .publishAck (make packetIdentifier) := by
  rw [eq_typeInto_iff hflags, and_assoc]
  refine header_bind_eq_ok_iff.trans (and_congr_right' (and_congr_right' ?_))
  refine ((reads_uint16 hend).bind_eq_ok_iff frame.ordered hend
    (fun packetId _ => packet = .publishAck (make packetId)) ?_).trans ?_
  · intro pos packetId _ _ _
    rw [Except.ok.injEq, eq_comm]
  · constructor
    · rintro ⟨packetId, _, rest, rfl, hbody, hpacket⟩
      exact ⟨packetId, rest, hbody, hpacket⟩
    · rintro ⟨packetId, rest, hbody, hpacket⟩
      exact ⟨packetId, _, rest, rfl, hbody, hpacket⟩

/-- Two bytes in front are an identifier. -/
theorem exists_uint16Bytes_append {bytes : Bytes} (h : 2 ≤ bytes.length) :
    ∃ value rest, bytes = uint16Bytes value ++ rest := by
  match bytes, h with
  | msb :: lsb :: rest, _ =>
      exact ⟨_, rest, by rw [uint16Bytes_ofNat msb lsb]; rfl⟩

/-- There is an acknowledgement of the same type for every identifier. -/
theorem exists_ack (ack : PublishAck) (packetIdentifier : UInt16) :
    ∃ ack' : PublishAck, ack.typeAndFlags = ack'.typeAndFlags ∧
      ack'.packetIdentifier = packetIdentifier := by
  cases ack with
  | puback _ => exact ⟨.puback packetIdentifier, rfl, rfl⟩
  | pubrec _ => exact ⟨.pubrec packetIdentifier, rfl, rfl⟩
  | pubrel _ => exact ⟨.pubrel packetIdentifier, rfl, rfl⟩
  | pubcomp _ => exact ⟨.pubcomp packetIdentifier, rfl, rfl⟩

/-- Acknowledgements of one type are those that its decoder makes. -/
theorem exists_ack_iff {type : PacketType} {flags : UInt8} {make : UInt16 → PublishAck}
    (hmake : ∀ ack : PublishAck, ack.type = type → ack = make ack.packetIdentifier)
    (hidentifier : ∀ packetIdentifier, (make packetIdentifier).packetIdentifier = packetIdentifier)
    (hflags : ∀ packetIdentifier, (make packetIdentifier).typeAndFlags = typeInto type flags)
    (htype : frame.type = type) :
    (frame.typeAndFlags = typeInto type flags ∧ ∃ packetIdentifier rest,
        frame.body buffer = uint16Bytes packetIdentifier ++ rest ∧
          packet = .publishAck (make packetIdentifier)) ↔
      ∃ ack rest, frame.typeAndFlags = ack.typeAndFlags ∧
        frame.body buffer = uint16Bytes ack.packetIdentifier ++ rest ∧
          packet = .publishAck ack := by
  constructor
  · rintro ⟨hbyte, packetId, rest, hbody, rfl⟩
    exact ⟨make packetId, rest, hbyte.trans (hflags packetId).symm,
      by rw [hidentifier, hbody], rfl⟩
  · rintro ⟨ack, rest, hbyte, hbody, rfl⟩
    have hack : ack.type = type := by
      rw [← ack.typeOf_typeAndFlags, ← hbyte, ← htype, Frame.type]
    refine ⟨?_, ack.packetIdentifier, rest, hbody, congrArg _ (hmake ack hack)⟩
    rw [hbyte, hmake ack hack, hflags]

/-- The acknowledgement that is decoded from a frame has its type and flags and the
identifier that its body begins with. -/
theorem decode_ack_eq_ok_iff (hend : frame.endPos ≤ buffer.length)
    (hack : frame.type ∈ ackTypes) :
    decode buffer frame = .ok packet ↔
      ∃ ack rest, frame.typeAndFlags = ack.typeAndFlags ∧
        frame.body buffer = uint16Bytes ack.packetIdentifier ++ rest ∧
          packet = .publishAck ack := by
  simp only [ackTypes, List.mem_cons, List.not_mem_nil, or_false] at hack
  rcases hack with htype | htype | htype | htype
  · rw [decode_eq htype rfl, decodePuback, decodeAck_eq_ok_iff rfl hend]
    refine exists_ack_iff ?_ (fun _ => rfl) (fun _ => rfl) htype
    intro ack h
    cases ack with
    | puback packetId => rfl
    | _ => cases h
  · rw [decode_eq htype rfl, decodePubrec, decodeAck_eq_ok_iff rfl hend]
    refine exists_ack_iff ?_ (fun _ => rfl) (fun _ => rfl) htype
    intro ack h
    cases ack with
    | pubrec packetId => rfl
    | _ => cases h
  · rw [decode_eq htype rfl, decodePubrel, decodeAck_eq_ok_iff rfl hend]
    refine exists_ack_iff ?_ (fun _ => rfl) (fun _ => rfl) htype
    intro ack h
    cases ack with
    | pubrel packetId => rfl
    | _ => cases h
  · rw [decode_eq htype rfl, decodePubcomp, decodeAck_eq_ok_iff rfl hend]
    refine exists_ack_iff ?_ (fun _ => rfl) (fun _ => rfl) htype
    intro ack h
    cases ack with
    | pubcomp packetId => rfl
    | _ => cases h

/-! ## Encoding what has been decoded -/

/-- An acknowledgement is encoded, whatever its identifier. -/
theorem encodable_ack (ack : PublishAck) : Encodable (.publishAck ack) where
  body := trivial
  allowed := le_maxAllowedPacketLength_iff.mpr (by simp [remainingLengthOf])
  announced := rfl

/-- What is decoded from a frame is encoded with the type and flags and the body of the
frame. -/
def Reencoded (buffer : Bytes) (frame : Frame) : Prop :=
  ∀ packet, decode buffer frame = .ok packet →
    ∃ wire : WirePacket, encoding packet = .ok wire.bytes ∧
      wire.typeAndFlags = frame.typeAndFlags ∧ wire.body = frame.body buffer

/-- The encoding of an acknowledgement has no other parts than these. -/
theorem parts_of_encoding_ack {ack : PublishAck} {wire : WirePacket}
    (h : encoding (.publishAck ack) = .ok wire.bytes) :
    wire.typeAndFlags = ack.typeAndFlags ∧ wire.body = uint16Bytes ack.packetIdentifier := by
  have hencodable := encodable_ack ack
  rw [encoding_eq hencodable, Except.ok.injEq] at h
  rw [← WirePacket.bytes_injective h]
  exact ⟨rfl, rfl⟩

/-- When decoding an acknowledgement and encoding it are inverse: what has been encoded is
always decoded, and what has been decoded is encoded as the frame unless the flags are legal
and something stands behind the identifier. -/
theorem ack_inverse_iff (hend : frame.endPos ≤ buffer.length) (hack : frame.type ∈ ackTypes) :
    (∀ ack : PublishAck, ∃ wire : WirePacket, encoding (.publishAck ack) = .ok wire.bytes ∧
      (frame.typeAndFlags = wire.typeAndFlags → frame.body buffer = wire.body →
        decode buffer frame = .ok (.publishAck ack))) ∧
    (Reencoded buffer frame ↔
      ∀ ack : PublishAck, frame.typeAndFlags = ack.typeAndFlags →
        (frame.body buffer).length ≤ 2) := by
  constructor
  · intro ack
    refine ⟨(encodable_ack ack).wirePacket, encoding_eq (encodable_ack ack), ?_⟩
    intro hflags hbody
    refine (decode_ack_eq_ok_iff hend hack).mpr ⟨ack, [], hflags, ?_, rfl⟩
    rw [List.append_nil]
    exact hbody
  · constructor
    · intro hreencoded ack hbyte
      by_contra hlong
      -- the first two bytes are decoded as the identifier
      obtain ⟨packetId, rest, hbody⟩ :=
        exists_uint16Bytes_append (by omega : 2 ≤ (frame.body buffer).length)
      obtain ⟨ack', hbyte', rfl⟩ := exists_ack ack packetId
      have hdecode := (decode_ack_eq_ok_iff hend hack).mpr
        ⟨ack', rest, hbyte.trans hbyte', hbody, rfl⟩
      obtain ⟨wire, hencoding, -, hwire⟩ := hreencoded _ hdecode
      rw [← hwire, (parts_of_encoding_ack hencoding).2, length_uint16Bytes] at hlong
      exact hlong (Nat.le_refl 2)
    · intro hshort packet hpacket
      obtain ⟨ack, rest, hbyte, hbody, rfl⟩ := (decode_ack_eq_ok_iff hend hack).mp hpacket
      have hrest : rest = [] := by
        have hlength := hshort ack hbyte
        rw [hbody, List.length_append, length_uint16Bytes] at hlength
        exact List.length_eq_zero_iff.mp (by omega)
      refine ⟨(encodable_ack ack).wirePacket, encoding_eq (encodable_ack ack), hbyte.symm, ?_⟩
      rw [hbody, hrest, List.append_nil]
      rfl

/-- The frame of a PUBACK with a body at the beginning of a buffer. -/
def pubackFrame (remainingLength : Nat) : Frame :=
  ⟨0x40, 0, remainingLength, Nat.zero_le remainingLength⟩

theorem ack_inverse_puback :
    (∀ ack : PublishAck, ∃ wire : WirePacket, encoding (.publishAck ack) = .ok wire.bytes ∧
      ((pubackFrame 2).typeAndFlags = wire.typeAndFlags →
        (pubackFrame 2).body [0x00, 0x07] = wire.body →
          decode [0x00, 0x07] (pubackFrame 2) = .ok (.publishAck ack))) ∧
    (Reencoded [0x00, 0x07] (pubackFrame 2) ↔
      ∀ ack : PublishAck, (pubackFrame 2).typeAndFlags = ack.typeAndFlags →
        ((pubackFrame 2).body [0x00, 0x07]).length ≤ 2) :=
  ack_inverse_iff (Nat.le_refl 2) (by decide)

/-- A byte behind the identifier is accepted and gets lost. -/
theorem ack_accepts_trailing_byte :
    decode [0x00, 0x07, 0xFF] (pubackFrame 3) = .ok (.publishAck (.puback 7)) ∧
      ¬ Reencoded [0x00, 0x07, 0xFF] (pubackFrame 3) := by
  have hdecode : decode [0x00, 0x07, 0xFF] (pubackFrame 3) = .ok (.publishAck (.puback 7)) := rfl
  refine ⟨hdecode, ?_⟩
  intro hreencoded
  obtain ⟨wire, hencoding, -, hbody⟩ := hreencoded _ hdecode
  have hlength := congrArg List.length hbody
  rw [(parts_of_encoding_ack hencoding).2, length_uint16Bytes] at hlength
  exact absurd hlength (by decide)

end Codec
end WallyIo
