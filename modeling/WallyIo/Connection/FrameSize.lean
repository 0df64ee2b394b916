import WallyIo.Connection.ReadPath

/-!
# Frames that fit into the read buffer

The frame reader enlarges the read buffer for a packet that does not fit, but the
read operation has remembered the size that the buffer had before.

Main results:

- Theorem {lit}`holdsFrame_iff`: when the handler of the read operation runs, the
  frame reader holds the frame of the packet exactly if the packet fits into the
  read buffer.
- Theorem {lit}`frame_not_held`: a PUBACK does not fit into a buffer of two bytes.
-/

namespace WallyIo
namespace Connection

open Protocol
open Library
open Codec

variable {readBufferSize : Nat} {q : Bytes} {reader : FrameReader}

/-- The frame reader holds first byte and body of a packet. -/
def HoldsFrame (packet : WirePacket) (reader : FrameReader) : Prop :=
  ∃ frame, reader.frame = some frame ∧ frame.typeAndFlags = packet.typeAndFlags ∧
    frame.body reader.buffer.elements = packet.body

/-- A frame that has been read holds what its bytes say. -/
theorem FrameRead.body_eq {packet : WirePacket} {hlen rlen : Nat}
    (h : FrameRead readBufferSize packet.bytes reader hlen rlen) :
    (reader.buffer.elements.drop hlen).take rlen = packet.body := by
  have hheader := h.header
  have hpacket := packet.headerOf_bytes []
  rw [List.append_nil, hheader] at hpacket
  cases hpacket
  have hdrop : (reader.buffer.elements.take
      (packet.headerLength + packet.body.length)).drop packet.headerLength =
        packet.body := by
    rw [h.elements_eq]
    have hfront : packet.bytes = (packet.typeAndFlags :: packet.lengthBytes) ++ packet.body :=
      rfl
    rw [hfront, List.drop_left' (by simp [WirePacket.headerLength])]
  rw [List.drop_take, Nat.add_sub_cancel_left] at hdrop
  exact hdrop

/-- A frame that has been read is the frame of its packet. -/
theorem FrameRead.holdsFrame {packet : WirePacket} {hlen rlen : Nat}
    (h : FrameRead readBufferSize packet.bytes reader hlen rlen) :
    HoldsFrame packet reader := by
  refine ⟨_, h.frame_eq, rfl, ?_⟩
  have hlength : hlen + rlen - hlen = rlen := Nat.add_sub_cancel_left ..
  simp only [Frame.body, Frame.remainingLength, hlength]
  exact h.body_eq

/-- When the handler of the read operation runs, the frame reader holds the frame of
the packet at the front of the stream exactly if the packet fits into the read
buffer. -/
theorem holdsFrame_iff {packet : WirePacket} {rest : Bytes} {steps pre post : List ReadStep}
    {u : Option ReadPath} {x : ReadStep} {total : Nat}
    (hrun : (readPath readBufferSize).Run (some (.initial readBufferSize)) steps u)
    (hsplit : steps = pre ++ x :: post)
    (hbefore : x.before = some ⟨reader, .completed none total⟩)
    (hstream : bytesRead pre <+: packet.bytes ++ rest) :
    HoldsFrame packet reader ↔ packet.bytes.length ≤ readBufferSize := by
  rcases reads_before hrun hsplit with ⟨s, _, hs, hreads, -, -⟩
  rw [hbefore] at hs
  cases hs
  constructor
  · rintro ⟨frame, hframe, -, -⟩
    rcases hreads with ⟨hlen, rlen, hread⟩ | hfilled
    · rcases packet.eq_of_prefix hread.header hread.length_eq hstream with ⟨heq, -, -⟩
      have hfits := hread.fits
      rw [← hread.length_eq, heq] at hfits
      exact hfits
    · rw [hfilled.no_frame] at hframe
      cases hframe
  · intro hfits
    rcases hreads with ⟨hlen, rlen, hread⟩ | hfilled
    · rcases packet.eq_of_prefix hread.header hread.length_eq hstream with ⟨heq, -, -⟩
      rw [heq] at hread
      exact hread.holdsFrame
    · -- a full buffer that has room for the packet would contain it
      exfalso
      have hfull := hfilled.full
      have hsub : packet.bytes <+: bytesRead pre :=
        List.prefix_of_prefix_length_le (List.prefix_append _ _) hstream (by omega)
      rcases hsub with ⟨tail, htail⟩
      have hheader := packet.headerOf_bytes tail
      rw [htail] at hheader
      have hlt := hfilled.unfinished _ _ hheader
      rw [← packet.length_bytes] at hlt
      omega

/-! ## A buffer of two bytes -/

/-- A PUBACK with packet identifier 1. -/
def puback : WirePacket where
  typeAndFlags := 0x40
  lengthBytes := [0x02]
  body := [0x00, 0x01]
  terminated := by decide
  atMostFour := by decide
  announced := by decide

/-- The socket delivers the header of a PUBACK byte by byte. -/
def smallBufferRun : Option (List ReadStep × Option ReadPath) :=
  (readPath 2).exec (some (.initial 2))
    [.readFrame, .received [0x40], .received [0x02], .onFrameRead]

theorem smallBufferRun_isSome : smallBufferRun.isSome = true := rfl

/-- When the handler runs in the run above, there is no frame. -/
theorem frame_not_held :
    2 ≤ 2 ∧ ∃ steps u pre x reader total rest,
      (readPath 2).Run (some (.initial 2)) steps u ∧ steps = pre ++ [x] ∧
        x.event = .onFrameRead ∧ x.before = some ⟨reader, .completed none total⟩ ∧
          bytesRead pre <+: puback.bytes ++ rest ∧ ¬ HoldsFrame puback reader ∧
            x.output = .error .assertion := by
  have hrun := Machine.run_exec (Option.some_get smallBufferRun_isSome).symm
  refine ⟨Nat.le_refl _, _, _, (smallBufferRun.get smallBufferRun_isSome).1.take 3,
    (smallBufferRun.get smallBufferRun_isSome).1.getLast (by decide), _, 2, [], hrun, rfl, rfl,
    rfl, ⟨[0x00, 0x01], rfl⟩, ?_, rfl⟩
  rintro ⟨frame, hframe, -⟩
  cases hframe

/-- The socket delivers a PUBACK in three parts to a buffer of four bytes. -/
def exactBufferRun : Option (List ReadStep × Option ReadPath) :=
  (readPath 4).exec (some (.initial 4))
    [.readFrame, .received [0x40], .received [0x02], .received [0x00, 0x01], .onFrameRead]

theorem exactBufferRun_isSome : exactBufferRun.isSome = true := rfl

/-- The frame is held in the run above. -/
theorem holdsFrame_exactBufferRun :
    ∃ reader, (HoldsFrame puback reader ↔ puback.bytes.length ≤ 4) ∧
      HoldsFrame puback reader := by
  have hrun := Machine.run_exec (Option.some_get exactBufferRun_isSome).symm
  have hsplit : (exactBufferRun.get exactBufferRun_isSome).1 =
      (exactBufferRun.get exactBufferRun_isSome).1.take 4 ++
        (exactBufferRun.get exactBufferRun_isSome).1.getLast (by decide) :: [] := rfl
  have hstream : bytesRead ((exactBufferRun.get exactBufferRun_isSome).1.take 4) <+:
      puback.bytes ++ [] := ⟨[], rfl⟩
  have hiff := holdsFrame_iff hrun hsplit rfl hstream
  exact ⟨_, hiff, hiff.mpr (by decide)⟩

end Connection
end WallyIo
