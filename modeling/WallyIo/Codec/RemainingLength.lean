import WallyIo.Codec.Encoder

/-!
# Remaining lengths

Three parts of the server deal with the length bytes of a packet: the encoder divides the
remaining length by the base as long as something is left, the frame reader adds up the
digits as long as another byte is announced, and the total length of a packet counts the
bytes by comparing the remaining length with powers of the base.

Main results:

- Theorem {lit}`remainingLength_codec`: the three agree on every remaining length that is
  allowed, whatever follows the length bytes and wherever they are cut off, and the encoder
  refuses every other one.
- Theorem {lit}`decodeRemainingLength_canonical`: the frame reader finds allowed numbers
  only.  It puts up with more length bytes than the encoder writes, but not with fewer.
-/

namespace WallyIo
namespace Codec

open Protocol
open Library

variable {n : UInt32}

/-! ## Counting length bytes -/

/-- The total length consists of the first byte, the length bytes and the body. -/
theorem totalLength_sub (h : n ≤ maxAllowedPacketLength) :
    (totalLength n - 1 - n).toNat = remLengthBytes n := by
  have htotal := totalLength_toNat h
  have hbound := le_maxAllowedPacketLength_iff.mp h
  have hfew := (remLengthBytes_bounds n).2
  simp only [UInt32.toNat_sub, UInt32.reduceToNat]
  omega

/-! ## Reading length bytes -/

variable {typeAndFlags : UInt8} {lengthBytes received : Bytes}

/-- The header is complete as soon as the length bytes have arrived. -/
theorem headerOf_of_lengthBytes (hterminated : Base128.Terminated lengthBytes)
    (hfour : lengthBytes.length ≤ 4) (hreceived : typeAndFlags :: lengthBytes <+: received) :
    headerOf received = .complete (1 + lengthBytes.length) (Base128.value lengthBytes) := by
  obtain ⟨rest, rfl⟩ := hreceived
  exact headerOf_eq_complete_iff.mpr
    ⟨lengthBytes, rest, rfl, hterminated, hfour, rfl, Nat.add_comm _ _⟩

/-- A header is incomplete before its last byte has been received. -/
theorem headerOf_of_cutOff (hterminated : Base128.Terminated lengthBytes)
    (hfour : lengthBytes.length ≤ 4) (hreceived : received <+: typeAndFlags :: lengthBytes)
    (hne : received ≠ typeAndFlags :: lengthBytes) : headerOf received = .incomplete := by
  cases received with
  | nil => rfl
  | cons first tail =>
      obtain ⟨rfl, htail⟩ := List.cons_prefix_cons.mp hreceived
      have hcutOff : tail ≠ lengthBytes := by
        intro hwhole
        exact hne (by rw [hwhole])
      have hlength := htail.length_le
      unfold headerOf
      rw [List.tail_cons, Base128.scan_eq_none_of_prefix hterminated htail hcutOff]
      simp only
      rw [if_pos (by omega)]

/-! ## The codec -/

/-- Every remaining length that is allowed is written in as many bytes as the total length
allows for, and found in them again.  Every other one is refused. -/
theorem remainingLength_codec (n : UInt32) :
    (n ≤ maxAllowedPacketLength →
      ∃ lengthBytes : Bytes,
        (∀ {size : Nat} (it : OutputIterator size),
          (encodeRemainingLength n it).map OutputIterator.written =
            if lengthBytes.length ≤ it.room then .ok (it.written ++ lengthBytes)
            else .error .undefinedBehaviour) ∧
        1 ≤ lengthBytes.length ∧ lengthBytes.length ≤ 4 ∧
        lengthBytes.length = (totalLength n - 1 - n).toNat ∧
        ∀ (typeAndFlags : UInt8) (received free : Bytes),
          (typeAndFlags :: lengthBytes <+: received →
            decodeRemainingLength (received ++ free) received.length =
              .ok (some (n.toNat, 1 + lengthBytes.length))) ∧
          (received <+: typeAndFlags :: lengthBytes → received ≠ typeAndFlags :: lengthBytes →
            decodeRemainingLength (received ++ free) received.length = .ok none)) ∧
    (maxAllowedPacketLength < n →
      ∀ {size : Nat} (it : OutputIterator size),
        encodeRemainingLength n it =
          if 5 ≤ it.room then .error (.malformedMqttPacket
            "Supplied remaining_length greater than allowed maximum")
          else .error .undefinedBehaviour) := by
  refine ⟨?_, fun hgreater size it => encodeRemainingLength_of_gt hgreater it⟩
  intro hallowed
  obtain ⟨hterminated, hvalue⟩ := Base128.encode_spec n.toNat
  have hlength := length_encode_remainingLength hallowed
  have hfour : (Base128.encode n.toNat).length ≤ 4 := by
    rw [hlength]
    exact (remLengthBytes_bounds n).2
  refine ⟨Base128.encode n.toNat, ?_, hterminated.length_pos, hfour, ?_, ?_⟩
  · intro size it
    rw [encodeRemainingLength_eq hallowed, OutputIterator.written_putAll]
  · rw [hlength, totalLength_sub hallowed]
  · intro typeAndFlags received free
    rw [decodeRemainingLength_eq_some_iff, decodeRemainingLength_eq_none_iff, List.take_left]
    constructor
    · intro hreceived
      have hheader := headerOf_of_lengthBytes hterminated hfour hreceived
      rwa [hvalue] at hheader
    · intro hreceived hne
      exact headerOf_of_cutOff hterminated hfour hreceived hne

/-- The two length bytes of 207, and the least remaining length that is refused. -/
theorem remainingLength_codec_sample :
    ((encodeRemainingLength 207 (.start 4)).map OutputIterator.written = .ok [0xCF, 0x01] ∧
      decodeRemainingLength [0x30, 0xCF, 0x01, 0xFF] 4 = .ok (some (207, 3)) ∧
      decodeRemainingLength [0x30, 0xCF, 0x01, 0xFF] 2 = .ok none) ∧
    encodeRemainingLength 268435456 (.start 5) = .error (.malformedMqttPacket
      "Supplied remaining_length greater than allowed maximum") := by
  constructor
  · obtain ⟨lengthBytes, hwritten, -, -, htotal, hread⟩ :=
      (remainingLength_codec 207).1 (by decide)
    have htwo : lengthBytes.length = 2 := htotal
    have hstart := hwritten (.start 4)
    rw [if_pos (by rw [htwo]; decide)] at hstart
    have hbytes : lengthBytes = [0xCF, 0x01] := by
      have hsame : Except.ok lengthBytes = (Except.ok [0xCF, 0x01] : Except Fault Bytes) :=
        hstart.symm
      exact Except.ok.inj hsame
    subst hbytes
    exact ⟨hstart, (hread 0x30 [0x30, 0xCF, 0x01, 0xFF] []).1 (by decide),
      (hread 0x30 [0x30, 0xCF] [0x01, 0xFF]).2 (by decide) (by decide)⟩
  · exact (remainingLength_codec 268435456).2 (by decide) (.start 5)

/-! ## Length bytes of other senders -/

/-- The frame reader finds allowed numbers only, and never in fewer bytes than the encoder
writes.  It has read the encoder's bytes exactly if there are as many. -/
theorem decodeRemainingLength_canonical {buffer : Bytes} {bytesTransferred rlen hlen : Nat}
    (h : decodeRemainingLength buffer bytesTransferred = .ok (some (rlen, hlen))) :
    ∃ n : UInt32, n ≤ maxAllowedPacketLength ∧ n.toNat = rlen ∧ 1 + remLengthBytes n ≤ hlen ∧
      (hlen = 1 + remLengthBytes n ↔
        (buffer.take bytesTransferred).tail.take (hlen - 1) = Base128.encode rlen) := by
  obtain ⟨front, rest, htail, hfront, hfour, rfl, rfl⟩ :=
    headerOf_eq_complete_iff.mp (decodeRemainingLength_eq_some_iff.mp h)
  have hbound := (headerOf_complete_bounds (decodeRemainingLength_eq_some_iff.mp h)).2.2.2
  have hvalue : (UInt32.ofNat (Base128.value front)).toNat = Base128.value front :=
    UInt32.toNat_ofNat_of_lt (Nat.lt_trans hbound (by decide))
  have hallowed : UInt32.ofNat (Base128.value front) ≤ maxAllowedPacketLength := by
    rw [le_maxAllowedPacketLength_iff, hvalue]
    exact Nat.le_of_lt_succ hbound
  have hlength := length_encode_remainingLength hallowed
  rw [hvalue] at hlength
  refine ⟨UInt32.ofNat (Base128.value front), hallowed, hvalue, ?_, ?_⟩
  · rw [← hlength, Nat.add_comm]
    exact Nat.succ_le_succ (Base128.length_encode_value_le hfront)
  · have hsame : front = Base128.encode (Base128.value front) ↔
        front.length = (Base128.encode (Base128.value front)).length :=
      eq_comm.trans (Base128.encode_value_eq_iff hfront)
    rw [htail, Nat.add_sub_cancel, List.take_left, hsame, ← hlength]
    omega

end Codec
end WallyIo
