import WallyIo.Codec.ConnectCodec
import WallyIo.Connection.FrameSize

/-!
# Malformed input

Whatever a client sends, a step of the read path should end in a request for more
bytes, in a decoded packet or in closing the connection because of a protocol
violation.  Four kinds of input break this: a remaining length of more than four
bytes, for which the completion condition of the read operation throws; a packet
that fills the read buffer before it is complete, for which an assertion fails; a
packet of a type that only servers send, for which the decoder throws
{lit}`std::invalid_argument`; and a CONNECT that ends behind its protocol name where
the read buffer ends, too.

Main results:

- Theorem {lit}`endsWell_iff`: a step ends in one of the three ways exactly if its
  input is of none of these kinds.
- Theorem {lit}`not_endsWell_reservedType`: a packet of a reserved type.
-/

namespace WallyIo
namespace Connection

open Protocol
open Library
open Codec
open Dispatch

variable {readBufferSize : Nat} {q : Bytes} {reader : FrameReader}

/-- The step asks for more bytes, starts the handler of the read operation, passes
on a decoded packet or closes the connection because of a protocol violation. -/
def EndsWell (x : ReadStep) : Prop :=
  match x.output with
  | .ok (.requested _) => True
  | .ok .completed => True
  | .ok (.processed _) => True
  | .ok (.closeRequested _ reason) => reason = .protocolViolation
  | .ok .ignored => False
  | .error _ => False

/-- A CONNECT packet without flags whose protocol level or connect flags would stand
behind the end of the read buffer. -/
def LevelOutside (readBufferSize : Nat) (packet : WirePacket) : Prop :=
  typeOf packet.typeAndFlags = .connect ∧ packet.typeAndFlags &&& 0x0F = 0x00 ∧
    ∃ msb lsb name tail, packet.body = msb :: lsb :: (name ++ tail) ∧
      name.length = msb.toNat * 2 ^ 8 + lsb.toNat ∧ name ≠ [] ∧
        readBufferSize < packet.headerLength + 2 + name.length + 2

/-- The input that the read path copes with: while bytes arrive, the remaining length
is not too long; when the handler runs, the bytes are a packet that has a decoder
and whose decoder stays inside of the read buffer. -/
def Harmless (readBufferSize : Nat) (q : Bytes) : ReadEvent → Prop
  | .readFrame => True
  | .received _ => ¬ Overlong q
  | .failed _ => True
  | .onFrameRead =>
      ∃ packet : WirePacket, packet.bytes = q ∧
        supported (typeOf packet.typeAndFlags) = true ∧ ¬ LevelOutside readBufferSize packet

/-! ## The decoder of CONNECT packets -/

/-- The decoder of a CONNECT that has been read runs out of the buffer exactly if the
packet is too short and ends where the buffer ends. -/
theorem runsOut_iff {packet : WirePacket} {hlen rlen : Nat}
    (h : FrameRead readBufferSize packet.bytes reader hlen rlen) :
    RunsOut reader.buffer.elements
        ⟨packet.bytes.getD 0 0, hlen, hlen + rlen, Nat.le_add_right _ _⟩ ↔
      LevelOutside readBufferSize packet := by
  have hbody := h.body_eq
  have hend := h.end_le
  have hsize : reader.buffer.elements.length = readBufferSize := by
    rw [HeapVector.length_elements, h.size_eq]
  have hhlen : hlen = packet.headerLength := by
    have hheader := packet.headerOf_bytes []
    rw [List.append_nil, h.header] at hheader
    cases hheader
    rfl
  have hrlen : packet.body.length = rlen := by
    rw [← hbody, List.length_take, List.length_drop]
    omega
  have hrest : ∃ behind, reader.buffer.elements.drop hlen = packet.body ++ behind := by
    refine ⟨(reader.buffer.elements.drop hlen).drop rlen, ?_⟩
    rw [← hbody, List.take_append_drop]
  unfold RunsOut LevelOutside
  constructor
  · rintro ⟨-, pos, name, hname, hout⟩
    rcases decodeProtocolName_eq_ok_iff.mp hname with ⟨htype, hflags, hstring, hne⟩
    rcases (decodeUtf8String_eq_ok_iff hend).mp hstring with
      ⟨hpos, hle, msb, lsb, rest, hbytes, hlength⟩
    simp only at hpos hle hbytes
    have hfront : packet.body = (msb :: lsb :: (name ++ rest)).take rlen := by
      rw [← hbytes, hbody]
    have htwo : rlen = rlen - 2 + 1 + 1 := by omega
    refine ⟨htype, hflags, msb, lsb, name, rest.take (rlen - 2 - name.length), ?_, hlength, hne,
      by omega⟩
    rw [hfront, htwo, List.take_succ_cons, List.take_succ_cons, List.take_append,
      List.take_of_length_le (by omega)]
    rfl
  · rintro ⟨htype, hflags, msb, lsb, name, tail, hfields, hlength, hne, hout⟩
    rcases hrest with ⟨behind, hbehind⟩
    have hbodyLength := congrArg List.length hfields
    simp only [List.length_cons, List.length_append] at hbodyLength
    refine ⟨htype, hlen + 2 + name.length, name, ?_, by omega⟩
    refine decodeProtocolName_eq_ok_iff.mpr ⟨htype, hflags, ?_, hne⟩
    refine (decodeUtf8String_eq_ok_iff hend).mpr
      ⟨rfl, by omega, msb, lsb, tail ++ behind, ?_, hlength⟩
    rw [hbehind, hfields]
    simp

/-! ## One step -/

/-- The handler copes with a frame exactly if the bytes are harmless. -/
theorem caught_frame_iff {hlen rlen : Nat} (h : FrameRead readBufferSize q reader hlen rlen) :
    Caught (decode reader.buffer.elements
        ⟨q.getD 0 0, hlen, hlen + rlen, Nat.le_add_right _ _⟩) ↔
      Harmless readBufferSize q .onFrameRead := by
  rw [caught_decode_iff h.end_le]
  rcases WirePacket.exists_iff.mpr ⟨hlen, rlen, h.header, h.length_eq⟩ with ⟨packet, rfl⟩
  rw [runsOut_iff h]
  constructor
  · rintro ⟨hsupported, hinside⟩
    exact ⟨packet, rfl, hsupported, hinside⟩
  · rintro ⟨packet', hbytes, hsupported, hinside⟩
    have hsame := WirePacket.bytes_injective hbytes
    subst hsame
    exact ⟨hsupported, hinside⟩

/-- How a delivery ends. -/
theorem endsWell_received {view : View} {total room : Nat} {data : Bytes} {x : ReadStep}
    (h : Reading readBufferSize q reader view total room) (hdata : data.length ≤ room)
    (hroom : room = 0 ∨ data ≠ [])
    (houtput : x.output = (readSome reader view total data).map Prod.fst) :
    EndsWell x ↔ ¬ Overlong (q ++ data) := by
  rw [← headerOf_eq_overlong_iff]
  rcases readSome_spec h hdata hroom with ⟨hover, hthrow⟩ | ⟨hover, o, s, hok, ho, -⟩
  · rw [hthrow] at houtput
    simp [EndsWell, houtput, hover, Except.map]
  · rw [hok] at houtput
    rcases ho with rfl | ⟨n, rfl⟩ <;>
    · simp [EndsWell, houtput, hover, Except.map]

/-- How the handler of a read operation ends. -/
theorem endsWell_onFrameRead {x : ReadStep}
    (h : (∃ hlen rlen, FrameRead readBufferSize q reader hlen rlen) ∨
      FilledUp readBufferSize q reader)
    (houtput : x.output = (decodePacket readBufferSize reader).map Prod.fst) :
    EndsWell x ↔ Harmless readBufferSize q .onFrameRead := by
  rcases h with ⟨hlen, rlen, hread⟩ | hfilled
  · rw [← caught_frame_iff hread]
    by_cases hcaught : Caught (decode reader.buffer.elements
        ⟨q.getD 0 0, hlen, hlen + rlen, Nat.le_add_right _ _⟩)
    · rcases decodePacket_of_caught readBufferSize hread.frame_eq hcaught with
        ⟨packet, s, hok, -⟩ | ⟨message, s, hok, -⟩ <;>
      · rw [hok] at houtput
        refine iff_of_true ?_ hcaught
        simp [EndsWell, houtput, Except.map]
    · rcases decodePacket_of_not_caught readBufferSize hread.frame_eq hcaught with
        ⟨failure, hfailure⟩
      rw [hfailure] at houtput
      refine iff_of_false ?_ hcaught
      simp [EndsWell, houtput, Except.map]
  · have hnone : ¬ Harmless readBufferSize q .onFrameRead := by
      rintro ⟨packet, hbytes, -⟩
      exact hfilled.unfinished.not_packet ⟨packet, hbytes⟩
    rw [decodePacket_of_no_frame hfilled.no_frame] at houtput
    simp [EndsWell, houtput, hnone, Except.map]

/-- Every step that does not deal with an error of the socket ends in one of the three
ways exactly if its input is harmless. -/
theorem endsWell_iff {steps pre post : List ReadStep} {u : Option ReadPath} {x : ReadStep}
    (hrun : (readPath readBufferSize).Run (some (.initial readBufferSize)) steps u)
    (hsplit : steps = pre ++ x :: post) (herror : ¬ HandlesError x) :
    EndsWell x ↔ Harmless readBufferSize (bytesRead (pre ++ [x])) x.event := by
  rcases reads_before hrun hsplit with
    ⟨⟨reader, phase⟩, result, hbefore, hreads, hstep, houtput⟩
  rw [bytesRead_append_singleton]
  cases hevent : x.event with
  | readFrame =>
      rw [hevent] at hstep
      cases phase with
      | idle =>
          rcases readFrame_spec hreads.1 hreads.2 with ⟨room, hcall, -⟩
          simp only [ReadPath.step, hcall] at hstep
          cases hstep
          simp [EndsWell, houtput, Harmless, Except.map]
      | reading => cases hstep
      | completed => cases hstep
      | closed => cases hstep
  | received data =>
      rw [hevent] at hstep
      cases phase with
      | reading view total room =>
          simp only [ReadPath.step] at hstep
          split at hstep
          · rename_i hallowed
            cases hstep
            exact endsWell_received hreads hallowed.1 hallowed.2 houtput
          · cases hstep
      | idle => cases hstep
      | completed => cases hstep
      | closed => cases hstep
  | failed ec =>
      rw [hevent] at hstep
      cases phase with
      | reading view total room =>
          have hcall := FrameReader.call_of_error (Reading.total_le hreads)
          simp only [ReadPath.step, readError, hcall, bind, Except.bind] at hstep
          cases hstep
          simp [EndsWell, houtput, Harmless, Except.map]
      | idle => cases hstep
      | completed => cases hstep
      | closed => cases hstep
  | onFrameRead =>
      rw [hevent] at hstep
      cases phase with
      | completed ec total =>
          cases ec with
          | none =>
              cases hstep
              exact endsWell_onFrameRead hreads houtput
          | some ec => exact absurd ⟨reader, ec, total, hbefore⟩ herror
      | idle => cases hstep
      | reading => cases hstep
      | closed => cases hstep

/-! ## A packet of a reserved type -/

/-- The socket delivers a packet of type 0 without a body. -/
def reservedTypeRun : Option (List ReadStep × Option ReadPath) :=
  (readPath 8).exec (some (.initial 8))
    [.readFrame, .received [0x00], .received [0x00], .onFrameRead]

theorem reservedTypeRun_isSome : reservedTypeRun.isSome = true := rfl

/-- The exception that the decoder throws leaves the handler in the run above. -/
theorem not_endsWell_reservedType :
    ∃ steps u pre x, (readPath 8).Run (some (.initial 8)) steps u ∧ steps = pre ++ [x] ∧
      ¬ HandlesError x ∧
        x.output = .error (.invalidArgument "Unsupported MQTT control packet type") ∧
          ¬ EndsWell x := by
  have hrun := Machine.run_exec (Option.some_get reservedTypeRun_isSome).symm
  refine ⟨_, _, (reservedTypeRun.get reservedTypeRun_isSome).1.take 3,
    (reservedTypeRun.get reservedTypeRun_isSome).1.getLast (by decide), hrun, rfl, ?_, rfl, id⟩
  rintro ⟨reader, ec, total, hbefore⟩
  cases hbefore

/-- The socket delivers a PINGREQ whose flags are not zero. -/
def badPingreqRun : Option (List ReadStep × Option ReadPath) :=
  (readPath 8).exec (some (.initial 8))
    [.readFrame, .received [0xC1], .received [0x00], .onFrameRead]

theorem badPingreqRun_isSome : badPingreqRun.isSome = true := rfl

/-- The connection is closed in the run above. -/
theorem endsWell_badPingreqRun :
    ∃ pre x, ¬ HandlesError x ∧
      (EndsWell x ↔ Harmless 8 (bytesRead (pre ++ [x])) x.event) ∧ EndsWell x := by
  have hrun := Machine.run_exec (Option.some_get badPingreqRun_isSome).symm
  have hsplit : (badPingreqRun.get badPingreqRun_isSome).1 =
      (badPingreqRun.get badPingreqRun_isSome).1.take 3 ++
        (badPingreqRun.get badPingreqRun_isSome).1.getLast (by decide) :: [] := rfl
  have herror :
      ¬ HandlesError ((badPingreqRun.get badPingreqRun_isSome).1.getLast (by decide)) := by
    rintro ⟨reader, ec, total, hbefore⟩
    cases hbefore
  exact ⟨_, _, herror, endsWell_iff hrun hsplit herror, rfl⟩

end Connection
end WallyIo
