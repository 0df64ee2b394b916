import WallyIo.Library.Base128
import WallyIo.Library.HeapVector
import WallyIo.Protocol.Common
import Mathlib.Tactic.Ring

/-!
# Reading frames

The frame reader looks at the bytes that have arrived so far and tells how many
more a read operation should ask for.  It works on the connection's read buffer,
which it enlarges when a packet is announced that does not fit.

Main results:

- Theorem {lit}`decodeRemainingLength_eq`: the loop over the length bytes finds
  the header that the received bytes begin with.
- Theorems {lit}`call_of_incomplete`, {lit}`call_of_overlong`,
  {lit}`call_of_partial` and {lit}`call_of_complete`: the answer of the frame
  reader for each kind of input.
- Theorem {lit}`WirePacket.exists_iff`: the byte sequences that are packets.
-/

namespace WallyIo
namespace Codec

open Protocol
open Library

/-! ## Frames and the frame reader -/

/-- A frame: the first byte of a packet and the range of its body in the buffer. -/
structure Frame where
  typeAndFlags : UInt8
  beginPos : Nat
  endPos : Nat
  ordered : beginPos ≤ endPos
deriving DecidableEq, Repr

namespace Frame

/-- The length of the body. -/
def remainingLength (frame : Frame) : Nat := frame.endPos - frame.beginPos

/-- The packet type. -/
def type (frame : Frame) : PacketType := typeOf frame.typeAndFlags

/-- The body of a frame. -/
def body (frame : Frame) (buffer : Bytes) : Bytes :=
  (buffer.drop frame.beginPos).take frame.remainingLength

end Frame

/-- The frame reader together with the buffer that it refers to. -/
structure FrameReader where
  buffer : HeapVector UInt8
  frame : Option Frame

/-- Subtraction of {lit}`size_t` values. -/
def sizeSub (a b : Nat) : Nat := (a + 2 ^ 64 - b) % 2 ^ 64

/-- The loop of {lit}`decode_remaining_length`, from byte {lit}`i` on. -/
def remainingLengthLoop (i rlen : Nat) : Bytes → Except Fault (Option (Nat × Nat))
  | [] => .ok none
  | currentByte :: rest =>
      if i > 4 then
        .error (.malformedMqttPacket "Encoded remaining length exceeds maximum allowed value")
      else
        let rlen := rlen + (currentByte &&& 0x7F).toNat * 128 ^ (i - 1)
        if currentByte &&& 0x80 = 0 then .ok (some (rlen, i + 1))
        else remainingLengthLoop (i + 1) rlen rest

/-- Remaining length and header length, if enough bytes have been transferred. -/
def decodeRemainingLength (buffer : Bytes) (bytesTransferred : Nat) :
    Except Fault (Option (Nat × Nat)) :=
  if bytesTransferred < 2 then .ok none
  else remainingLengthLoop 1 0 ((buffer.take bytesTransferred).drop 1)

namespace FrameReader

variable (reader : FrameReader)

/-- Expand the buffer to accommodate {lit}`len` bytes if necessary. -/
def expand (len : Nat) : HeapVector UInt8 :=
  if len > reader.buffer.size then reader.buffer.grow (len - reader.buffer.size) 0x00
  else reader.buffer

/-- {lit}`operator( )`: the number of bytes that are still missing. -/
def call (error : Bool) (bytesTransferred : Nat) : Except Fault (Nat × FrameReader) := do
  assert (decide (bytesTransferred ≤ reader.buffer.size))
  if error then
    .ok (0, reader)
  else
    match ← decodeRemainingLength reader.buffer.elements bytesTransferred with
    | none => .ok (1, reader)
    | some (rlen, hlen) =>
        let remaining := sizeSub (hlen + rlen) bytesTransferred
        let buffer := reader.expand (hlen + rlen)
        assert (decide (hlen + rlen ≤ buffer.size))
        if remaining = 0 then
          .ok (0, ⟨buffer, some ⟨buffer.elements.getD 0 0, hlen, hlen + rlen, by omega⟩⟩)
        else .ok (remaining, ⟨buffer, reader.frame⟩)

/-- Forget the frame. -/
def reset : FrameReader := { reader with frame := none }

end FrameReader

/-! ## Headers -/

/-- What the bytes of a packet that have arrived say about its length. -/
inductive Header
  | incomplete
  | complete (hlen rlen : Nat)
  | overlong
deriving DecidableEq, Repr

/-- The header that a list of bytes begins with. -/
def headerOf (q : Bytes) : Header :=
  match Base128.scan q.tail with
  | some (rlen, digits) => if digits ≤ 4 then .complete (digits + 1) rlen else .overlong
  | none => if q.tail.length ≤ 4 then .incomplete else .overlong

/-- More than four bytes are used for the remaining length. -/
def Overlong (q : Bytes) : Prop :=
  6 ≤ q.length ∧ ∀ byte ∈ (q.drop 1).take 4, Base128.continues byte = true

/-- The outcome of the loop for the bytes from {lit}`i` on. -/
theorem remainingLengthLoop_eq (i rlen : Nat) (bytes : Bytes) (hpos : 1 ≤ i) (hle : i ≤ 5) :
    remainingLengthLoop i rlen bytes =
      match Base128.scan bytes with
      | some (v, digits) =>
          if i + digits ≤ 5 then .ok (some (rlen + v * 128 ^ (i - 1), i + digits))
          else .error (.malformedMqttPacket
            "Encoded remaining length exceeds maximum allowed value")
      | none =>
          if i + bytes.length ≤ 5 then .ok none
          else .error (.malformedMqttPacket
            "Encoded remaining length exceeds maximum allowed value") := by
  induction bytes generalizing i rlen with
  | nil => simp [remainingLengthLoop, Base128.scan, hle]
  | cons byte bytes ih =>
      by_cases hlast : i > 4
      · -- the fifth length byte is refused, whatever it says
        have hi : i = 5 := by omega
        subst hi
        rw [remainingLengthLoop, if_pos hlast]
        cases hscan : Base128.scan (byte :: bytes) with
        | none => simp
        | some r =>
            obtain ⟨v, digits⟩ := r
            rcases Base128.scan_eq_some_iff.mp hscan with ⟨front, _, _, hfront, _, hdigits⟩
            have hdigitsPos := hfront.length_pos
            simp only
            rw [if_neg (by omega)]
      · rw [remainingLengthLoop, if_neg hlast]
        cases hbyte : Base128.continues byte with
        | false =>
            have hmsb : byte &&& 0x80 = 0 := by simpa [Base128.continues] using hbyte
            simp only [Base128.scan, hbyte, Bool.false_eq_true, if_false]
            rw [if_pos hmsb, if_pos (by omega)]
            rfl
        | true =>
            have hmsb : ¬ byte &&& 0x80 = 0 := by simpa [Base128.continues] using hbyte
            have hpow : 128 ^ (i + 1 - 1) = 128 ^ (i - 1) * 128 := by
              rw [← Nat.pow_succ]
              congr 1
              omega
            rw [if_neg hmsb, ih (i + 1) _ (by omega) (by omega)]
            simp only [Base128.scan, hbyte, if_true]
            cases hscan : Base128.scan bytes with
            | none =>
                have hsame : i + 1 + bytes.length = i + (byte :: bytes).length := by
                  rw [List.length_cons]
                  omega
                simp only [Option.map_none]
                rw [hsame]
            | some r =>
                obtain ⟨v, digits⟩ := r
                have hsame : i + 1 + digits = i + (digits + 1) := by omega
                have hsum : rlen + (byte &&& 0x7F).toNat * 128 ^ (i - 1) +
                    v * 128 ^ (i + 1 - 1) =
                      rlen + (Base128.digit byte + 128 * v) * 128 ^ (i - 1) := by
                  rw [hpow, Base128.digit]
                  ring
                simp only [Option.map_some]
                rw [hsame, hsum]

/-- The loop over the length bytes finds the header that the received bytes begin
with. -/
theorem decodeRemainingLength_eq (buffer : Bytes) (bytesTransferred : Nat) :
    decodeRemainingLength buffer bytesTransferred =
      match headerOf (buffer.take bytesTransferred) with
      | .incomplete => .ok none
      | .complete hlen rlen => .ok (some (rlen, hlen))
      | .overlong => .error (.malformedMqttPacket
          "Encoded remaining length exceeds maximum allowed value") := by
  unfold decodeRemainingLength headerOf
  rw [List.drop_one]
  by_cases hfew : bytesTransferred < 2
  · have htail : (buffer.take bytesTransferred).tail = [] := by
      apply List.eq_nil_of_length_eq_zero
      rw [List.length_tail, List.length_take]
      omega
    rw [if_pos hfew, htail]
    rfl
  · rw [if_neg hfew, remainingLengthLoop_eq 1 0 _ (by omega) (by omega)]
    cases hscan : Base128.scan (buffer.take bytesTransferred).tail with
    | none =>
        simp only
        by_cases hlength : (buffer.take bytesTransferred).tail.length ≤ 4
        · rw [if_pos (by omega), if_pos hlength]
        · rw [if_neg (by omega), if_neg hlength]
    | some r =>
        obtain ⟨v, digits⟩ := r
        simp only
        by_cases hdigits : digits ≤ 4
        · rw [if_pos (by omega), if_pos hdigits]
          simp [Nat.add_comm]
        · rw [if_neg (by omega), if_neg hdigits]

/-- Lengths are found exactly if the header is complete. -/
theorem decodeRemainingLength_eq_some_iff {buffer : Bytes} {bytesTransferred rlen hlen : Nat} :
    decodeRemainingLength buffer bytesTransferred = .ok (some (rlen, hlen)) ↔
      headerOf (buffer.take bytesTransferred) = .complete hlen rlen := by
  rw [decodeRemainingLength_eq]
  cases headerOf (buffer.take bytesTransferred) with
  | incomplete | overlong => simp
  | complete hlen' rlen' => simp [and_comm]

/-- Nothing is found exactly if it is incomplete. -/
theorem decodeRemainingLength_eq_none_iff {buffer : Bytes} {bytesTransferred : Nat} :
    decodeRemainingLength buffer bytesTransferred = .ok none ↔
      headerOf (buffer.take bytesTransferred) = .incomplete := by
  rw [decodeRemainingLength_eq]
  cases headerOf (buffer.take bytesTransferred) <;> simp

/-! ## Properties of headers -/

/-- A complete header consists of the first byte and of at most four length bytes. -/
theorem headerOf_eq_complete_iff {q : Bytes} {hlen rlen : Nat} :
    headerOf q = .complete hlen rlen ↔
      ∃ front rest, q.tail = front ++ rest ∧ Base128.Terminated front ∧ front.length ≤ 4 ∧
        Base128.value front = rlen ∧ front.length + 1 = hlen := by
  unfold headerOf
  constructor
  · intro h
    cases hscan : Base128.scan q.tail with
    | none =>
        rw [hscan] at h
        simp only at h
        split at h <;> cases h
    | some r =>
        obtain ⟨v, digits⟩ := r
        rw [hscan] at h
        simp only at h
        split at h
        · rename_i hfour
          cases h
          obtain ⟨front, rest, htail, hfront, hvalue, rfl⟩ := Base128.scan_eq_some_iff.mp hscan
          exact ⟨front, rest, htail, hfront, hfour, hvalue, rfl⟩
        · cases h
  · rintro ⟨front, rest, htail, hfront, hfour, rfl, rfl⟩
    rw [htail, Base128.scan_append hfront]
    exact if_pos hfour

/-- A complete header occupies two to five of the received bytes. -/
theorem headerOf_complete_bounds {q : Bytes} {hlen rlen : Nat}
    (h : headerOf q = .complete hlen rlen) :
    2 ≤ hlen ∧ hlen ≤ 5 ∧ hlen ≤ q.length ∧ rlen < 2 ^ 28 := by
  obtain ⟨front, rest, htail, hfront, hfour, rfl, rfl⟩ := headerOf_eq_complete_iff.mp h
  have hpos := hfront.length_pos
  have hlt := Base128.value_lt front
  have hpow : 128 ^ front.length ≤ 128 ^ 4 := Nat.pow_le_pow_right (by omega) (by omega)
  have htailLength := congrArg List.length htail
  rw [List.length_tail, List.length_append] at htailLength
  omega

/-- More bytes do not change a complete header. -/
theorem headerOf_append {q : Bytes} {hlen rlen : Nat} (h : headerOf q = .complete hlen rlen)
    (rest : Bytes) : headerOf (q ++ rest) = .complete hlen rlen := by
  have hne : q ≠ [] := by
    rintro rfl
    cases h
  obtain ⟨front, behind, htail, hheader⟩ := headerOf_eq_complete_iff.mp h
  refine headerOf_eq_complete_iff.mpr ⟨front, behind ++ rest, ?_, hheader⟩
  rw [List.tail_append_of_ne_nil hne, htail, List.append_assoc]

/-- The header of a packet is found in every part of the packet that contains it. -/
theorem headerOf_take {q : Bytes} {hlen rlen k : Nat} (h : headerOf q = .complete hlen rlen)
    (hk : hlen ≤ k) : headerOf (q.take k) = .complete hlen rlen := by
  obtain ⟨front, rest, htail, hfront, hfour, hvalue, rfl⟩ := headerOf_eq_complete_iff.mp h
  refine headerOf_eq_complete_iff.mpr
    ⟨front, rest.take (k - 1 - front.length), ?_, hfront, hfour, hvalue, rfl⟩
  rw [← List.drop_one, List.drop_take, List.drop_one, htail, List.take_append,
    List.take_of_length_le (by omega)]

/-- A header is too long exactly if its fourth length byte announces a fifth one
and that has arrived. -/
theorem headerOf_eq_overlong_iff {q : Bytes} : headerOf q = .overlong ↔ Overlong q := by
  unfold headerOf Overlong
  rw [List.drop_one]
  cases hscan : Base128.scan q.tail with
  | none =>
      have hall := Base128.scan_eq_none_iff.mp hscan
      have hlength : q.tail.length = q.length - 1 := List.length_tail
      simp only
      constructor
      · intro h
        split at h
        · cases h
        · exact ⟨by omega, fun byte hbyte => hall byte (List.mem_of_mem_take hbyte)⟩
      · rintro ⟨hsix, -⟩
        rw [if_neg (by omega)]
  | some r =>
      obtain ⟨v, digits⟩ := r
      rcases Base128.scan_eq_some_iff.mp hscan with
        ⟨front, rest, htail, hfront, hvalue, hdigits⟩
      have hlength : q.tail.length = q.length - 1 := List.length_tail
      have htailLength := congrArg List.length htail
      rw [List.length_append] at htailLength
      simp only
      constructor
      · intro h
        split at h
        · cases h
        · refine ⟨by omega, ?_⟩
          -- the first four bytes do not end the number
          rw [htail, List.take_append_of_le_length (by omega)]
          refine Base128.scan_eq_none_iff.mp
            (Base128.scan_eq_none_of_prefix hfront (List.take_prefix 4 front) ?_)
          intro hwhole
          have htakeLength := congrArg List.length hwhole
          rw [List.length_take] at htakeLength
          omega
      · rintro ⟨-, hall⟩
        rw [if_neg]
        intro hle
        have hnone := Base128.scan_eq_none_iff.mpr hall
        have hfront' : q.tail.take 4 = front ++ (rest.take (4 - front.length)) := by
          rw [htail, List.take_append, List.take_of_length_le (by omega)]
        rw [hfront', Base128.scan_append hfront] at hnone
        cases hnone

/-! ## Packets on the wire -/

/-- The bytes of a packet: first byte, remaining length in one to four bytes and
body. -/
structure WirePacket where
  typeAndFlags : UInt8
  lengthBytes : Bytes
  body : Bytes
  terminated : Base128.Terminated lengthBytes
  atMostFour : lengthBytes.length ≤ 4
  announced : Base128.value lengthBytes = body.length
deriving DecidableEq

namespace WirePacket

variable (packet : WirePacket)

/-- The length of the fixed header. -/
def headerLength : Nat := packet.lengthBytes.length + 1

/-- The packet as a sequence of bytes. -/
def bytes : Bytes := packet.typeAndFlags :: (packet.lengthBytes ++ packet.body)

theorem length_bytes : packet.bytes.length = packet.headerLength + packet.body.length := by
  simp only [bytes, headerLength, List.length_cons, List.length_append]
  omega

/-- A packet begins with its header. -/
theorem headerOf_bytes (rest : Bytes) :
    headerOf (packet.bytes ++ rest) =
      .complete packet.headerLength packet.body.length := by
  have htail : (packet.bytes ++ rest).tail =
      packet.lengthBytes ++ (packet.body ++ rest) := by
    simp [bytes]
  exact headerOf_eq_complete_iff.mpr ⟨packet.lengthBytes, packet.body ++ rest, htail,
    packet.terminated, packet.atMostFour, packet.announced, rfl⟩

/-- The byte sequences that are packets are those whose header announces what
follows it. -/
theorem exists_iff {q : Bytes} :
    (∃ packet : WirePacket, packet.bytes = q) ↔
      ∃ hlen rlen, headerOf q = .complete hlen rlen ∧ q.length = hlen + rlen := by
  constructor
  · rintro ⟨packet, rfl⟩
    have hheader := packet.headerOf_bytes []
    rw [List.append_nil] at hheader
    exact ⟨packet.headerLength, packet.body.length, hheader, packet.length_bytes⟩
  · rintro ⟨hlen, rlen, hheader, hlength⟩
    cases q with
    | nil => cases hheader
    | cons typeAndFlags tail =>
        obtain ⟨front, rest, htail, hfront, hfour, hvalue, hfrontLength⟩ :=
          headerOf_eq_complete_iff.mp hheader
        rw [List.tail_cons] at htail
        subst htail
        rw [List.length_cons, List.length_append] at hlength
        exact ⟨⟨typeAndFlags, front, rest, hfront, hfour, by omega⟩, rfl⟩

/-- A packet that is in front of other bytes ends where its header says. -/
theorem eq_of_prefix {q rest : Bytes} {hlen rlen : Nat}
    (hheader : headerOf q = .complete hlen rlen) (hlength : q.length = hlen + rlen)
    (hstream : q <+: packet.bytes ++ rest) :
    q = packet.bytes ∧ hlen = packet.headerLength ∧ rlen = packet.body.length := by
  rcases hstream with ⟨tail, htail⟩
  have hsame := headerOf_append hheader tail
  rw [htail, packet.headerOf_bytes rest] at hsame
  cases hsame
  have hlengths : q.length = packet.bytes.length := by
    rw [hlength, packet.length_bytes]
  exact ⟨(List.append_inj htail hlengths).1, rfl, rfl⟩

/-- A packet is determined by its bytes. -/
theorem bytes_injective {p p' : WirePacket} (h : p.bytes = p'.bytes) : p = p' := by
  have hheader := p.headerOf_bytes []
  rw [h, p'.headerOf_bytes []] at hheader
  simp only [Header.complete.injEq] at hheader
  have hlength : p.lengthBytes.length = p'.lengthBytes.length := by
    have hsame := hheader.1
    unfold headerLength at hsame
    omega
  have hbytes : p.typeAndFlags = p'.typeAndFlags ∧
      p.lengthBytes ++ p.body = p'.lengthBytes ++ p'.body := by
    simpa [bytes] using h
  have hparts := List.append_inj hbytes.2 hlength
  obtain ⟨typeAndFlags, lengthBytes, body, _, _, _⟩ := p
  obtain ⟨typeAndFlags', lengthBytes', body', _, _, _⟩ := p'
  simp only at hbytes hparts
  simp [hbytes.1, hparts.1, hparts.2]

end WirePacket

/-! ## Answers of the frame reader -/

namespace FrameReader

variable {reader : FrameReader} {q : Bytes} {n : Nat}

@[simp]
theorem size_expand (len : Nat) : (reader.expand len).size = max len reader.buffer.size := by
  unfold expand
  split
  · rw [HeapVector.size_grow]
    omega
  · omega

/-- A buffer that is large enough stays as it is. -/
theorem expand_of_le (reader : FrameReader) {len : Nat} (h : len ≤ reader.buffer.size) :
    reader.expand len = reader.buffer := by
  unfold expand
  rw [if_neg (by omega)]

/-- Expanding the buffer keeps the bytes in it. -/
theorem take_memory_expand {len k : Nat} (h : k ≤ reader.buffer.size) :
    (reader.expand len).memory.take k = reader.buffer.memory.take k := by
  unfold expand
  split
  · exact reader.buffer.take_memory_grow _ _ h
  · rfl

/-- An error ends the read operation. -/
theorem call_of_error (hsize : n ≤ reader.buffer.size) :
    reader.call true n = .ok (0, reader) := by
  unfold call
  rw [decide_eq_true hsize]
  rfl

/-- Without a header, one more byte is asked for. -/
theorem call_of_incomplete (hsize : n ≤ reader.buffer.size)
    (hq : headerOf (reader.buffer.elements.take n) = .incomplete) :
    reader.call false n = .ok (1, reader) := by
  unfold call
  rw [decide_eq_true hsize, decodeRemainingLength_eq, hq]
  rfl

/-- A header that is too long makes the frame reader throw. -/
theorem call_of_overlong (hsize : n ≤ reader.buffer.size)
    (hq : headerOf (reader.buffer.elements.take n) = .overlong) :
    reader.call false n = .error (.malformedMqttPacket
      "Encoded remaining length exceeds maximum allowed value") := by
  unfold call
  rw [decide_eq_true hsize, decodeRemainingLength_eq, hq]
  rfl

/-- What the frame reader computes once it knows the header. -/
theorem call_of_header {hlen rlen : Nat} (hsize : n ≤ reader.buffer.size)
    (hq : headerOf (reader.buffer.elements.take n) = .complete hlen rlen)
    (hn : n ≤ hlen + rlen) :
    reader.call false n =
      if n = hlen + rlen then
        .ok (0, ⟨reader.buffer, some ⟨reader.buffer.elements.getD 0 0, hlen, hlen + rlen,
          by omega⟩⟩)
      else .ok (hlen + rlen - n, ⟨reader.expand (hlen + rlen), reader.frame⟩) := by
  have hbounds := headerOf_complete_bounds hq
  have hremaining : sizeSub (hlen + rlen) n = hlen + rlen - n := by
    unfold sizeSub
    omega
  have hfits : hlen + rlen ≤ (reader.expand (hlen + rlen)).size := by
    rw [size_expand]
    omega
  unfold call
  rw [decide_eq_true hsize, decodeRemainingLength_eq, hq]
  simp only [assert_true, Bool.false_eq_true, if_false, bind, Except.bind]
  rw [decide_eq_true hfits, hremaining]
  simp only [assert_true]
  by_cases hdone : n = hlen + rlen
  · have hzero : hlen + rlen - n = 0 := by omega
    rw [if_pos hdone, if_pos hzero, reader.expand_of_le (by omega)]
  · have hmissing : ¬ hlen + rlen - n = 0 := by omega
    rw [if_neg hdone, if_neg hmissing]

/-- A packet that has arrived completely is a frame. -/
theorem call_of_complete {hlen rlen : Nat} (hsize : n ≤ reader.buffer.size)
    (hq : headerOf (reader.buffer.elements.take n) = .complete hlen rlen)
    (hn : n = hlen + rlen) :
    reader.call false n =
      .ok (0, ⟨reader.buffer, some ⟨reader.buffer.elements.getD 0 0, hlen, hlen + rlen,
        by omega⟩⟩) := by
  rw [call_of_header hsize hq (Nat.le_of_eq hn), if_pos hn]

/-- As long as bytes are missing, they are asked for, and the buffer is expanded. -/
theorem call_of_partial (hlen rlen : Nat) (hsize : n ≤ reader.buffer.size)
    (hq : headerOf (reader.buffer.elements.take n) = .complete hlen rlen)
    (hn : n < hlen + rlen) :
    reader.call false n =
      .ok (hlen + rlen - n, ⟨reader.expand (hlen + rlen), reader.frame⟩) := by
  rw [call_of_header hsize hq (by omega), if_neg (by omega)]

end FrameReader

end Codec
end WallyIo
