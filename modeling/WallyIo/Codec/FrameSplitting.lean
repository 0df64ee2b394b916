import WallyIo.Codec.FrameReader

/-!
# Splitting a stream into frames

A reader calls the frame reader with the number of bytes that it has read, and reads at
least one and at most as many further bytes as it is told.  Nothing else is known about
the sizes of its chunks.

Main results:

- Theorem {lit}`headerOf_take_packet`: the first bytes of a packet contain its header or
  say nothing.
- Theorem {lit}`Driven.of_packet`: no byte behind the first packet is read.
- Theorem {lit}`frames_split_exactly`: reading ends exactly behind the first packet, and a
  length of more than four bytes is refused when the sixth byte has been read.
-/

namespace WallyIo
namespace Codec

open Protocol
open Library

/-! ## Reading a stream in chunks -/

/-- The buffer holds what has been read of a stream. -/
structure Holds (stream : Bytes) (reader : FrameReader) (n : Nat) : Prop where
  length : n ≤ stream.length
  size : n ≤ reader.buffer.size
  bytes : reader.buffer.elements.take n = stream.take n

/-- The frame reader is about to be called with the number of bytes that have been read.
Between two calls the buffer may grow. -/
inductive Driven (stream : Bytes) : FrameReader → Nat → Prop
  | start {reader : FrameReader} (hreset : reader.frame = none) : Driven stream reader 0
  | next {reader reader' reader'' : FrameReader} {n answer k : Nat}
      (hdriven : Driven stream reader n) (hcall : reader.call false n = .ok (answer, reader'))
      (hpos : 1 ≤ k) (hmost : k ≤ answer) (hframe : reader''.frame = reader'.frame)
      (hholds : Holds stream reader'' (n + k)) : Driven stream reader'' (n + k)

variable {stream rest : Bytes} {reader : FrameReader} {packet : WirePacket} {n : Nat}

theorem Driven.holds (h : Driven stream reader n) : Holds stream reader n := by
  cases h with
  | start => exact ⟨Nat.zero_le _, Nat.zero_le _, rfl⟩
  | next hdriven hcall hpos hmost hframe hholds => exact hholds

/-! ## One packet and what follows it -/

/-- The first bytes of a packet contain its header or say nothing. -/
theorem headerOf_take_packet (packet : WirePacket) (rest : Bytes) (n : Nat) :
    headerOf ((packet.bytes ++ rest).take n) =
      if n < packet.headerLength then .incomplete
      else .complete packet.headerLength packet.body.length := by
  have hheader := packet.headerOf_bytes rest
  split
  · rename_i hshort
    have hlength : ((packet.bytes ++ rest).take n).length ≤ n := List.length_take_le _ _
    have hfive := headerOf_complete_bounds hheader
    cases htake : headerOf ((packet.bytes ++ rest).take n) with
    | incomplete => rfl
    | complete hlen rlen =>
        -- a header that is complete stays so, but this one would be too short
        have hsame := headerOf_append htake ((packet.bytes ++ rest).drop n)
        rw [List.take_append_drop, hheader] at hsame
        have hbounds := headerOf_complete_bounds htake
        cases hsame
        omega
    | overlong =>
        have hsix := (headerOf_eq_overlong_iff.mp htake).1
        omega
  · rename_i hlong
    exact headerOf_take hheader (by omega)

/-- What is known at a call while the first packet of a stream is read. -/
structure Splits (packet : WirePacket) (reader : FrameReader) (n : Nat) : Prop where
  /-- No byte of the next packet has been read, and there is no frame yet. -/
  inside : n ≤ packet.bytes.length
  noFrame : reader.frame = none
  /-- The subtraction of the bytes that have been read does not underflow. -/
  ordered : ∀ rlen hlen,
    decodeRemainingLength reader.buffer.elements n = .ok (some (rlen, hlen)) →
      hlen + rlen = packet.bytes.length ∧ n ≤ hlen + rlen
  /-- The call ends the reading exactly at the end of the packet and asks for no byte of
  the next one; then the frame is the packet. -/
  call : ∃ answer reader', reader.call false n = .ok (answer, reader') ∧
    (answer = 0 ↔ n = packet.bytes.length) ∧ n + answer ≤ packet.bytes.length ∧
    (n < packet.bytes.length → reader'.frame = none) ∧
    (n = packet.bytes.length → ∃ frame, reader'.frame = some frame ∧
      frame.typeAndFlags = packet.typeAndFlags ∧
        frame.body reader'.buffer.elements = packet.body)

/-- The buffer begins with the header that the packet begins with. -/
theorem Holds.headerOf_eq (h : Holds (packet.bytes ++ rest) reader n) :
    headerOf (reader.buffer.elements.take n) =
      if n < packet.headerLength then .incomplete
      else .complete packet.headerLength packet.body.length := by
  rw [h.bytes, headerOf_take_packet]

/-- A buffer that begins with a packet yields it as a frame. -/
theorem frame_of_holds (h : Holds (packet.bytes ++ rest) reader packet.bytes.length) :
    ∃ frame : Frame, reader.call false packet.bytes.length =
        .ok (0, ⟨reader.buffer, some frame⟩) ∧
      frame.typeAndFlags = packet.typeAndFlags ∧
      frame.endPos ≤ reader.buffer.elements.length ∧
      frame.remainingLength = packet.body.length ∧
      frame.body reader.buffer.elements = packet.body := by
  have hlength := packet.length_bytes
  have hsize := h.size
  have hheader := h.headerOf_eq
  rw [if_neg (by omega)] at hheader
  have helements : reader.buffer.elements =
      packet.bytes ++ reader.buffer.elements.drop packet.bytes.length := by
    have hfront := h.bytes
    rw [List.take_left'] at hfront
    · rw [← List.take_append_drop packet.bytes.length reader.buffer.elements, hfront]
      simp
    · rfl
  refine ⟨_, FrameReader.call_of_complete hsize hheader hlength, ?_, ?_, ?_, ?_⟩
  · rw [helements]
    rfl
  · change packet.headerLength + packet.body.length ≤ _
    rw [HeapVector.length_elements]
    omega
  · exact Nat.add_sub_cancel_left _ _
  · have hdrop : packet.bytes.drop packet.headerLength = packet.body := by
      simp [WirePacket.bytes, WirePacket.headerLength]
    have hrange : packet.headerLength ≤ packet.bytes.length := by omega
    simp only [Frame.body, Frame.remainingLength, Nat.add_sub_cancel_left]
    rw [helements, List.drop_append_of_le_length hrange, hdrop, List.take_left']
    rfl

/-- What one call does while the first packet of a stream is read. -/
theorem splits_of_holds (h : Holds (packet.bytes ++ rest) reader n)
    (hinside : n ≤ packet.bytes.length) (hframe : reader.frame = none) :
    Splits packet reader n := by
  have hlength := packet.length_bytes
  have hheader := h.headerOf_eq
  refine ⟨hinside, hframe, ?_, ?_⟩
  · intro rlen hlen hdecode
    rw [decodeRemainingLength_eq, hheader] at hdecode
    split at hdecode
    · cases hdecode
    · rename_i heq
      split at heq
      · cases heq
      · cases heq
        cases hdecode
        omega
    · cases hdecode
  · by_cases hshort : n < packet.headerLength
    · rw [if_pos hshort] at hheader
      refine ⟨1, reader, FrameReader.call_of_incomplete h.size hheader, ?_, ?_, ?_, ?_⟩
      · omega
      · omega
      · exact fun _ => hframe
      · intro hend
        omega
    · rw [if_neg hshort] at hheader
      by_cases hend : n = packet.bytes.length
      · subst hend
        rcases frame_of_holds h with ⟨frame, hcall, htype, -, -, hbody⟩
        refine ⟨0, _, hcall, ?_, ?_, ?_, ?_⟩
        · omega
        · omega
        · intro hless
          omega
        · exact fun _ => ⟨frame, rfl, htype, hbody⟩
      · refine ⟨_, _, FrameReader.call_of_partial _ _ h.size hheader (by omega), ?_, ?_, ?_, ?_⟩
        · omega
        · omega
        · exact fun _ => hframe
        · exact fun h => absurd h hend

/-- No byte behind the first packet is read. -/
theorem Driven.of_packet (h : Driven (packet.bytes ++ rest) reader n) :
    n ≤ packet.bytes.length ∧ reader.frame = none := by
  induction h with
  | start hreset => exact ⟨Nat.zero_le _, hreset⟩
  | next hdriven hcall hpos hmost hframe hholds ih =>
      have hsplits := splits_of_holds hdriven.holds ih.1 ih.2
      rcases hsplits.call with ⟨answer, reader', hcall', hzero, hmore, hnone, -⟩
      rw [hcall] at hcall'
      cases hcall'
      refine ⟨by omega, ?_⟩
      rw [hframe]
      apply hnone
      have hinside := ih.1
      omega

/-- The frame of a packet in a buffer that holds nothing else. -/
def WirePacket.frame (packet : WirePacket) : Frame :=
  ⟨packet.typeAndFlags, packet.headerLength, packet.bytes.length, by
    rw [packet.length_bytes]
    exact Nat.le_add_right _ _⟩

theorem WirePacket.remainingLength_frame (packet : WirePacket) :
    packet.frame.remainingLength = packet.body.length := by
  have hlength := packet.length_bytes
  change packet.bytes.length - packet.headerLength = packet.body.length
  omega

theorem WirePacket.body_frame (packet : WirePacket) :
    packet.frame.body packet.bytes = packet.body := by
  have hdrop : packet.bytes.drop packet.headerLength = packet.body := by
    simp [WirePacket.bytes, WirePacket.headerLength]
  rw [Frame.body, packet.remainingLength_frame]
  exact (congrArg (List.take _) hdrop).trans (List.take_length)

/-! ## A length of more than four bytes -/

/-- The first four length bytes of a stream announce a fifth one. -/
def AnnouncesFifth (stream : Bytes) : Prop :=
  5 ≤ stream.length ∧ ∀ byte ∈ (stream.drop 1).take 4, Base128.continues byte = true

/-- What is known at a call while a stream is read that announces a fifth length byte. -/
structure Refuses (reader : FrameReader) (n : Nat) : Prop where
  atMostSix : n ≤ 6
  noFrame : reader.frame = none
  /-- Before the sixth byte the reader is told to read one more byte. -/
  before : n < 6 → reader.call false n = .ok (1, reader)
  /-- With the sixth byte the reader is told that the packet is malformed. -/
  refused : n = 6 → reader.call false n = .error (.malformedMqttPacket
    "Encoded remaining length exceeds maximum allowed value")

/-- Five bytes of a stream that announces a fifth length byte do not contain a header, and six are
too many. -/
theorem headerOf_take_announcesFifth (h : AnnouncesFifth stream) (hn : n ≤ 6)
    (hlength : n ≤ stream.length) :
    headerOf (stream.take n) = if n < 6 then .incomplete else .overlong := by
  have htail : (stream.take n).tail = (stream.drop 1).take (n - 1) := by
    rw [← List.drop_one, List.drop_take]
  split
  · rename_i hfew
    have hnone : Base128.scan (stream.take n).tail = none := by
      rw [Base128.scan_eq_none_iff, htail]
      intro byte hbyte
      apply h.2 byte
      rw [← Nat.min_eq_left (show n - 1 ≤ 4 by omega), ← List.take_take] at hbyte
      exact List.mem_of_mem_take hbyte
    have hfour : (stream.take n).tail.length ≤ 4 := by
      rw [List.length_tail, List.length_take]
      omega
    rw [headerOf, hnone]
    exact if_pos hfour
  · rw [headerOf_eq_overlong_iff]
    refine ⟨?_, ?_⟩
    · rw [List.length_take]
      omega
    · intro byte hbyte
      apply h.2 byte
      rw [List.drop_one, htail, List.take_take, Nat.min_eq_left (by omega)] at hbyte
      exact hbyte

theorem refuses_of_holds (hstream : AnnouncesFifth stream) (h : Holds stream reader n)
    (hn : n ≤ 6) (hframe : reader.frame = none) : Refuses reader n := by
  have hheader := headerOf_take_announcesFifth hstream hn h.length
  rw [← h.bytes] at hheader
  refine ⟨hn, hframe, ?_, ?_⟩
  · intro hfew
    rw [if_pos hfew] at hheader
    exact FrameReader.call_of_incomplete h.size hheader
  · intro hsix
    rw [if_neg (by omega)] at hheader
    exact FrameReader.call_of_overlong h.size hheader

/-- No seventh byte of a stream is read that announces a fifth length byte. -/
theorem Driven.of_announcesFifth (hstream : AnnouncesFifth stream) (h : Driven stream reader n) :
    n ≤ 6 ∧ reader.frame = none := by
  induction h with
  | start hreset => exact ⟨Nat.zero_le _, hreset⟩
  | next hdriven hcall hpos hmost hframe hholds ih =>
      rename_i before reader' after m answer k
      have hrefuses := refuses_of_holds hstream hdriven.holds ih.1 ih.2
      by_cases hfew : m < 6
      · rw [hrefuses.before hfew] at hcall
        cases hcall
        exact ⟨by omega, hframe.trans ih.2⟩
      · have hsix : m = 6 := by
          have hle := ih.1
          omega
        rw [hrefuses.refused hsix] at hcall
        cases hcall

/-- Reading ends exactly behind the first packet, however the stream is cut into chunks.
A length of more than four bytes is refused when the sixth byte has been read, and not
before. -/
theorem frames_split_exactly :
    (∀ (packet : WirePacket) (rest : Bytes) (reader : FrameReader) (n : Nat),
      Driven (packet.bytes ++ rest) reader n → Splits packet reader n) ∧
    (∀ (stream : Bytes) (reader : FrameReader) (n : Nat),
      AnnouncesFifth stream → Driven stream reader n → Refuses reader n) := by
  constructor
  · intro packet rest reader n h
    exact splits_of_holds h.holds h.of_packet.1 h.of_packet.2
  · intro stream reader n hstream h
    have hbefore := h.of_announcesFifth hstream
    exact refuses_of_holds hstream h.holds hbefore.1 hbefore.2

/-- The end of a packet is reached, for instance when a large buffer is filled byte by
byte. -/
theorem driven_ofList (packet : WirePacket) (rest : Bytes) (hn : n ≤ packet.bytes.length) :
    Driven (packet.bytes ++ rest) ⟨.ofList (packet.bytes ++ rest), none⟩ n := by
  induction n with
  | zero => exact .start rfl
  | succ n ih =>
      have hdriven := ih (by omega)
      have hsplits := splits_of_holds hdriven.holds (by omega) rfl
      rcases hsplits.call with ⟨answer, reader', hcall, hzero, hmore, hnone, -⟩
      refine .next hdriven hcall (Nat.le_refl 1) (by omega) (hnone (by omega)).symm ⟨?_, ?_, ?_⟩
      · rw [List.length_append]
        omega
      · rw [HeapVector.size_ofList, List.length_append]
        omega
      · rw [HeapVector.elements_ofList]

/-- A stream that announces a fifth length byte is read byte by byte up to its sixth byte. -/
theorem driven_ofList_announcesFifth (hstream : AnnouncesFifth stream)
    (hlength : 6 ≤ stream.length) (hn : n ≤ 6) : Driven stream ⟨.ofList stream, none⟩ n := by
  induction n with
  | zero => exact .start rfl
  | succ n ih =>
      have hdriven := ih (by omega)
      have hrefuses := refuses_of_holds hstream hdriven.holds (by omega) rfl
      refine .next hdriven (hrefuses.before hn) (Nat.le_refl 1) (Nat.le_refl 1) rfl ⟨?_, ?_, ?_⟩
      · omega
      · rw [HeapVector.size_ofList]
        omega
      · rw [HeapVector.elements_ofList]

/-- A PUBLISH with quality of service 1. -/
def samplePacket : WirePacket :=
  ⟨0x33, [0x06], [0x00, 0x01, 0x61, 0x00, 0x07, 0x62], by decide, by decide, rfl⟩

/-- The PUBLISH, and a PINGREQ that follows. -/
def sampleStream : Bytes := samplePacket.bytes ++ [0xC0, 0x00]

/-- A reader with a buffer for sixteen bytes, some of which have been read. -/
def sampleReader (n : Nat) : FrameReader :=
  ⟨.ofList (sampleStream.take n ++ List.replicate (16 - n) 0x00), none⟩

/-- The header arrives byte by byte and the body in two chunks. -/
theorem driven_sampleStream : Driven sampleStream (sampleReader 8) 8 := by
  have hstart : Driven sampleStream (sampleReader 0) 0 := .start rfl
  have htype : Driven sampleStream (sampleReader 1) 1 :=
    hstart.next (n := 0) (k := 1) (FrameReader.call_of_incomplete (by decide) rfl)
      (by decide) (by decide) rfl ⟨by decide, by decide, rfl⟩
  have hheader : Driven sampleStream (sampleReader 2) 2 :=
    htype.next (n := 1) (k := 1) (FrameReader.call_of_incomplete (by decide) rfl)
      (by decide) (by decide) rfl ⟨by decide, by decide, rfl⟩
  have hchunk : Driven sampleStream (sampleReader 5) 5 :=
    hheader.next (n := 2) (k := 3)
      (FrameReader.call_of_partial 2 6 (by decide) (by decide) (by decide))
      (by decide) (by decide) rfl ⟨by decide, by decide, rfl⟩
  exact hchunk.next (n := 5) (k := 3)
    (FrameReader.call_of_partial 2 6 (by decide) (by decide) (by decide))
    (by decide) (by decide) rfl ⟨by decide, by decide, rfl⟩

/-- A first byte and five length bytes. -/
def fifthStream : Bytes := [0x30, 0x80, 0x80, 0x80, 0x80, 0x01]

theorem announcesFifth_fifthStream : AnnouncesFifth fifthStream := by
  refine ⟨Nat.le_succ 5, ?_⟩
  intro byte hbyte
  have hsame : byte = 0x80 := by simpa [fifthStream] using hbyte
  rw [hsame]
  rfl

theorem splits_samplePacket :
    Splits samplePacket (sampleReader 8) 8 ∧ Refuses ⟨.ofList fifthStream, none⟩ 6 :=
  ⟨frames_split_exactly.1 samplePacket [0xC0, 0x00] _ 8 driven_sampleStream,
    frames_split_exactly.2 _ _ 6 announcesFifth_fifthStream
      (driven_ofList_announcesFifth announcesFifth_fifthStream (Nat.le_refl 6) (Nat.le_refl 6))⟩

end Codec
end WallyIo
