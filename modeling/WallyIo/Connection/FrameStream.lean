import WallyIo.Codec.WireFormat
import WallyIo.Connection.FrameSize
import Mathlib.Data.List.Forall2

/-!
# The stream of frames

A connection reads one frame after another.  Over a whole run, the bytes that the socket has
delivered are the packets that have been processed, in order, and the bytes of the current
frame.

Main results:

- Theorem {lit}`streamed_of_run`: no byte is skipped or read twice between two frames.
- Theorem {lit}`processes_wholePackets`: the packets that are processed do not depend on the
  chunks that the socket delivers.
- Theorem {lit}`processes_stream`: a stream of well-formed packets that fit into the read
  buffer is processed to its end.
-/

namespace WallyIo
namespace Connection

open Protocol
open Library
open Codec
open Dispatch

/-! ## What a run receives and processes -/

/-- The bytes that the socket delivers. -/
def ReadEvent.data : ReadEvent → Bytes
  | .received data => data
  | .readFrame | .failed _ | .onFrameRead => []

/-- All bytes that the socket has delivered. -/
def arrived (steps : List ReadStep) : Bytes := steps.flatMap fun x => x.event.data

/-- The packet that a step passes on. -/
def processedPacket : Except Fault ReadOutput → Option MqttPacket
  | .ok (.processed packet) => some packet
  | _ => none

/-- All packets that have been passed on, in order. -/
def processed (steps : List ReadStep) : List MqttPacket :=
  steps.filterMap fun x => processedPacket x.output

@[simp]
theorem arrived_nil : arrived [] = [] := rfl

@[simp]
theorem arrived_append_singleton (steps : List ReadStep) (x : ReadStep) :
    arrived (steps ++ [x]) = arrived steps ++ x.event.data := by
  simp [arrived]

@[simp]
theorem processed_nil : processed [] = [] := rfl

@[simp]
theorem processed_append_singleton (steps : List ReadStep) (x : ReadStep) :
    processed (steps ++ [x]) = processed steps ++ (processedPacket x.output).toList := by
  rw [processed, List.filterMap_append, processed]
  cases hpacket : processedPacket x.output <;> simp [hpacket]

/-- The read path waits for the next bytes, or for the next frame to begin. -/
def Waits (s : ReadPath) : Prop :=
  match s.phase with
  | .idle | .reading _ _ _ => True
  | .completed _ _ | .closed => False

/-- The bytes that have been read and not been processed yet. -/
def unprocessed (steps : List ReadStep) (s : ReadPath) : Bytes :=
  if s.phase = .idle then [] else bytesRead steps

variable {readBufferSize : Nat} {steps : List ReadStep} {s s' : ReadPath}

/-- The bytes that have been received are packets that have been processed, each of which fits
into the read buffer, and further bytes. -/
structure Streamed (readBufferSize : Nat) (steps : List ReadStep) (wires : List WirePacket)
    (rest : Bytes) : Prop where
  arrived_eq : arrived steps = (wires.map WirePacket.bytes).flatten ++ rest
  standsFor : List.Forall₂ WirePacket.StandsFor wires (processed steps)
  fits : ∀ wire ∈ wires, wire.bytes.length ≤ readBufferSize

/-! ## One step -/

/-- A frame that is decoded is a packet that stands for what it is decoded as. -/
theorem standsFor_of_frameRead {q : Bytes} {reader : FrameReader} {hlen rlen : Nat}
    (h : FrameRead readBufferSize q reader hlen rlen) {packet : MqttPacket}
    (hdecode : decode reader.buffer.elements
      ⟨q.getD 0 0, hlen, hlen + rlen, Nat.le_add_right _ _⟩ = .ok packet) :
    ∃ wire : WirePacket, wire.bytes = q ∧ wire.StandsFor packet := by
  obtain ⟨wire, rfl⟩ := WirePacket.exists_iff.mpr ⟨hlen, rlen, h.header, h.length_eq⟩
  refine ⟨wire, rfl, ?_⟩
  have hformat := wireFormat_of_decode h.end_le hdecode
  simp only [Frame.body, Frame.remainingLength, Nat.add_sub_cancel_left, h.body_eq] at hformat
  exact hformat

/-- A packet is decoded from a frame of bytes that stand for it. -/
theorem decode_of_standsFor {wire : WirePacket} {reader : FrameReader} {hlen rlen : Nat}
    (h : FrameRead readBufferSize wire.bytes reader hlen rlen) {packet : MqttPacket}
    (hpacket : wire.StandsFor packet) :
    decode reader.buffer.elements
      ⟨wire.bytes.getD 0 0, hlen, hlen + rlen, Nat.le_add_right _ _⟩ = .ok packet := by
  apply decode_of_wireFormat h.end_le
  simp only [Frame.body, Frame.remainingLength, Nat.add_sub_cancel_left, h.body_eq]
  exact hpacket

/-- What the handler of a read operation makes of a frame. -/
theorem decodePacket_eq_ok {reader : FrameReader} {o : ReadOutput}
    (h : decodePacket readBufferSize reader = .ok (o, s)) :
    (∃ frame packet, reader.frame = some frame ∧
      decode reader.buffer.elements frame = .ok packet ∧ o = .processed packet ∧
        s.phase = .idle) ∨
      processedPacket (.ok o) = none ∧ s.phase = .closed := by
  unfold decodePacket at h
  split at h
  · cases h
  · rename_i frame hframe
    split at h
    · rename_i packet hdecode
      cases h
      exact Or.inl ⟨frame, packet, hframe, hdecode, rfl, rfl⟩
    · cases h
      exact Or.inr ⟨rfl, rfl⟩
    · cases h

/-- A frame that is decoded is passed on. -/
theorem decodePacket_of_ok {reader : FrameReader} {frame : Frame} {packet : MqttPacket}
    (hframe : reader.frame = some frame)
    (hdecode : decode reader.buffer.elements frame = .ok packet) :
    ∃ s, decodePacket readBufferSize reader = .ok (.processed packet, s) ∧ s.phase = .idle := by
  unfold decodePacket
  simp only [hframe, hdecode]
  exact ⟨_, rfl, rfl⟩

/-- The handler of a read operation moves the bytes of the current frame to those that have been
processed, if it processes them. -/
theorem streamed_onFrameRead {wires : List WirePacket} {q : Bytes} {reader : FrameReader}
    {o : ReadOutput} {x : ReadStep} (hstreamed : Streamed readBufferSize steps wires q)
    (hreads : (∃ hlen rlen, FrameRead readBufferSize q reader hlen rlen) ∨
      FilledUp readBufferSize q reader)
    (hstep : decodePacket readBufferSize reader = .ok (o, s)) (hevent : x.event = .onFrameRead)
    (houtput : x.output = .ok o) :
    ∃ wires', Streamed readBufferSize (steps ++ [x]) wires'
      (if s.phase = .idle then [] else q) := by
  have harrived : arrived (steps ++ [x]) = arrived steps := by
    rw [arrived_append_singleton, hevent, ReadEvent.data, List.append_nil]
  rcases decodePacket_eq_ok hstep with
    ⟨frame, packet, hframe, hdecode, rfl, hidle⟩ | ⟨hnothing, hclosed⟩
  · rcases hreads with ⟨hlen, rlen, hread⟩ | hfilled
    · rw [hread.frame_eq, Option.some.injEq] at hframe
      subst hframe
      obtain ⟨wire, rfl, hwire⟩ := standsFor_of_frameRead hread hdecode
      refine ⟨wires ++ [wire], ?_, ?_, ?_⟩
      · rw [harrived, hstreamed.arrived_eq, if_pos hidle]
        simp
      · rw [processed_append_singleton, houtput]
        exact List.rel_append hstreamed.standsFor (.cons hwire .nil)
      · intro w hw
        rcases List.mem_append.mp hw with hw | hw
        · exact hstreamed.fits w hw
        · rw [List.mem_singleton.mp hw, hread.length_eq]
          exact hread.fits
    · rw [hfilled.no_frame] at hframe
      cases hframe
  · refine ⟨wires, ?_, ?_, hstreamed.fits⟩
    · rw [harrived, hstreamed.arrived_eq, if_neg (by rw [hclosed]; nofun)]
    · rw [processed_append_singleton, houtput, hnothing]
      simpa using hstreamed.standsFor

/-- Steps other than those that pass on a packet. -/
theorem Streamed.of_quiet {wires : List WirePacket} {q q' : Bytes} {x : ReadStep}
    (h : Streamed readBufferSize steps wires q) (hquiet : processedPacket x.output = none)
    (hbytes : q' = q ++ x.event.data) :
    Streamed readBufferSize (steps ++ [x]) wires q' where
  arrived_eq := by
    rw [arrived_append_singleton, h.arrived_eq, hbytes, List.append_assoc]
  standsFor := by
    rw [processed_append_singleton, hquiet]
    simpa using h.standsFor
  fits := h.fits

/-- A delivery asks for more bytes or ends the read operation. -/
theorem readSome_quiet {reader : FrameReader} {view : View} {total : Nat} {data : Bytes}
    {o : ReadOutput} (h : readSome reader view total data = .ok (o, s)) :
    processedPacket (.ok o) = none ∧
      ((∃ view total room, s.phase = .reading view total room) ∨
        ∃ total, s.phase = .completed none total) := by
  unfold readSome at h
  dsimp only at h
  split at h
  · cases h
    exact ⟨rfl, Or.inr ⟨_, rfl⟩⟩
  · obtain ⟨⟨n, reader'⟩, -, h⟩ := bind_eq_ok_iff.mp h
    dsimp only at h
    split at h
    · cases h
      exact ⟨rfl, Or.inr ⟨_, rfl⟩⟩
    · cases h
      exact ⟨rfl, Or.inl ⟨_, _, _, rfl⟩⟩

/-- Only the handler of the read operation passes on packets. -/
theorem quiet_of_step {e : ReadEvent} {o : ReadOutput}
    (h : s.step readBufferSize e = some (.ok (o, s'))) (he : e ≠ .onFrameRead) :
    processedPacket (.ok o) = none ∧ s'.phase ≠ .idle := by
  obtain ⟨reader, phase⟩ := s
  cases e with
  | readFrame =>
      cases phase with
      | idle =>
          rw [ReadPath.step, Option.some.injEq] at h
          obtain ⟨⟨n, reader'⟩, -, h⟩ := bind_eq_ok_iff.mp h
          cases h
          exact ⟨rfl, by simp⟩
      | reading | completed | closed => cases h
  | received data =>
      cases phase with
      | reading view total room =>
          simp only [ReadPath.step] at h
          split at h
          · obtain ⟨hquiet, ⟨view', total', room', hphase⟩ | ⟨total', hphase⟩⟩ :=
              readSome_quiet (Option.some.inj h)
            · exact ⟨hquiet, by simp [hphase]⟩
            · exact ⟨hquiet, by simp [hphase]⟩
          · cases h
      | idle | completed | closed => cases h
  | failed ec =>
      cases phase with
      | reading view total room =>
          rw [ReadPath.step, Option.some.injEq] at h
          obtain ⟨⟨n, reader'⟩, -, h⟩ := bind_eq_ok_iff.mp h
          cases h
          exact ⟨rfl, by simp⟩
      | idle | completed | closed => cases h
  | onFrameRead => exact absurd rfl he

/-- One step keeps the bytes in order. -/
theorem streamed_step {wires : List WirePacket} {e : ReadEvent} {o : ReadOutput}
    (hreads : Reads readBufferSize (bytesRead steps) s)
    (hstreamed : Streamed readBufferSize steps wires (unprocessed steps s))
    (hstep : s.step readBufferSize e = some (.ok (o, s'))) :
    ∃ wires', Streamed readBufferSize (steps ++ [⟨some s, e, .ok o, some s'⟩]) wires'
      (unprocessed (steps ++ [⟨some s, e, .ok o, some s'⟩]) s') := by
  have hlater : unprocessed (steps ++ [⟨some s, e, .ok o, some s'⟩]) s' =
      if s'.phase = .idle then [] else bytesAfter (bytesRead steps) e := by
    rw [unprocessed, bytesRead_append_singleton]
  rw [hlater]
  obtain ⟨reader, phase⟩ := s
  cases e with
  | onFrameRead =>
      cases phase with
      | completed ec total =>
          rw [ReadPath.step, Option.some.injEq] at hstep
          cases ec with
          | none => exact streamed_onFrameRead hstreamed hreads hstep rfl rfl
          | some ec =>
              refine ⟨wires, hstreamed.of_quiet ?_ ?_⟩ <;> cases ec <;> cases hstep <;>
                simp [processedPacket, unprocessed, bytesAfter, ReadEvent.data]
      | idle | reading | closed => cases hstep
  | readFrame =>
      obtain ⟨hquiet, hphase⟩ := quiet_of_step hstep (by simp)
      cases phase with
      | idle => exact ⟨wires, hstreamed.of_quiet hquiet (if_neg hphase)⟩
      | reading | completed | closed => cases hstep
  | received data =>
      obtain ⟨hquiet, hphase⟩ := quiet_of_step hstep (by simp)
      cases phase with
      | reading => exact ⟨wires, hstreamed.of_quiet hquiet (if_neg hphase)⟩
      | idle | completed | closed => cases hstep
  | failed ec =>
      obtain ⟨hquiet, hphase⟩ := quiet_of_step hstep (by simp)
      cases phase with
      | reading =>
          refine ⟨wires, hstreamed.of_quiet hquiet ?_⟩
          rw [if_neg hphase, ReadEvent.data, List.append_nil]
          rfl
      | idle | completed | closed => cases hstep

/-! ## Runs -/

/-- After every run the bytes that have been received are packets that have been processed, and
the bytes of the current frame. -/
theorem streamed_of_run
    (hrun : (readPath readBufferSize).Run (some (.initial readBufferSize)) steps (some s)) :
    ∃ wires, Streamed readBufferSize steps wires (unprocessed steps s) := by
  refine hrun.alive_invariant (fun _ => rfl) (fun _ => True)
    (fun steps s => ∃ wires, Streamed readBufferSize steps wires (unprocessed steps s)) ?_ ?_
    (fun _ _ => trivial)
  · exact ⟨[], rfl, .nil, fun _ hw => absurd hw List.not_mem_nil⟩
  · rintro pre t e o u hpre ⟨wires, hstreamed⟩ hstep -
    obtain ⟨o', hok, rfl⟩ := Machine.ofFallible_step_alive_iff.mp hstep
    exact streamed_step (reads_of_run hpre t rfl) hstreamed hok

/-- Bytes that do not contain a packet do not begin with one. -/
theorem Unfinished.not_begins {q : Bytes} (h : Unfinished q) :
    ∀ w ∈ WirePacket.words, ¬ w <+: q := by
  rintro _ ⟨wire, rfl⟩ ⟨tail, rfl⟩
  have hlt := h _ _ (wire.headerOf_bytes tail)
  rw [← wire.length_bytes, List.length_append] at hlt
  omega

/-- While bytes are missing, no packet is waiting to be processed. -/
theorem unfinished_of_waits (hreads : Reads readBufferSize (bytesRead steps) s) (h : Waits s) :
    Unfinished (unprocessed steps s) := by
  obtain ⟨reader, phase⟩ := s
  cases phase with
  | idle => exact unfinished_of_incomplete rfl
  | reading view total room =>
      intro hlen rlen hheader
      have hpos := Reading.missing_pos hreads
      have hbytes : headerOf (bytesRead steps) = .complete hlen rlen := hheader
      rw [missing_of_complete hbytes] at hpos
      exact Nat.lt_of_sub_pos hpos
  | completed | closed => exact h.elim

/-- The packets that have been processed are those found in the bytes that have been
received. -/
theorem Streamed.parses {wires : List WirePacket} {rest : Bytes}
    (h : Streamed readBufferSize steps wires rest) (hrest : Unfinished rest) :
    Parses WirePacket.words (arrived steps) (wires.map WirePacket.bytes) rest where
  mem := by
    intro w hw
    obtain ⟨wire, -, rfl⟩ := List.mem_map.mp hw
    exact ⟨wire, rfl⟩
  stream_eq := h.arrived_eq
  unfinished := hrest.not_begins

/-- Fewer packets on the wire stand for fewer packets. -/
theorem prefix_of_standsFor {wires wires' : List WirePacket} {packets packets' : List MqttPacket}
    (h : List.Forall₂ WirePacket.StandsFor wires packets)
    (h' : List.Forall₂ WirePacket.StandsFor wires' packets')
    (hbegins : wires.map WirePacket.bytes <+: wires'.map WirePacket.bytes) :
    packets <+: packets' := by
  have hunique : Relator.RightUnique WirePacket.StandsFor :=
    fun _ _ _ hpacket hpacket' => hpacket.unique hpacket'
  obtain ⟨left, rfl⟩ :=
    (List.prefix_map_iff_of_injective fun _ _ => WirePacket.bytes_injective).mp hbegins
  have htake := List.forall₂_take wires.length h'
  rw [List.take_left] at htake
  rw [List.right_unique_forall₂' hunique h htake]
  exact List.take_prefix _ _

/-- The packets that are processed are those which the received bytes consist of: a run that has
received more has processed these packets first, whatever the chunks and the size of the read
buffer. -/
theorem processes_wholePackets
    (hrun : (readPath readBufferSize).Run (some (.initial readBufferSize)) steps (some s)) :
    (∃ (wires : List WirePacket) (rest : Bytes),
      arrived steps = (wires.map WirePacket.bytes).flatten ++ rest ∧
        List.Forall₂ WirePacket.StandsFor wires (processed steps) ∧
          (∀ wire ∈ wires, wire.bytes.length ≤ readBufferSize) ∧
            (Waits s → ∀ wire : WirePacket, ¬ wire.bytes <+: rest)) ∧
    ∀ (readBufferSize' : Nat) (steps' : List ReadStep) (s' : ReadPath),
      (readPath readBufferSize').Run (some (.initial readBufferSize')) steps' (some s') →
        Waits s → Waits s' → arrived steps <+: arrived steps' →
          processed steps <+: processed steps' := by
  obtain ⟨wires, hstreamed⟩ := streamed_of_run hrun
  have hreads := reads_of_run hrun s rfl
  constructor
  · refine ⟨wires, _, hstreamed.arrived_eq, hstreamed.standsFor, hstreamed.fits, ?_⟩
    intro hwaits wire
    exact (unfinished_of_waits hreads hwaits).not_begins _ ⟨wire, rfl⟩
  · rintro readBufferSize' steps' s' hrun' hwaits hwaits' ⟨more, hmore⟩
    obtain ⟨wires', hstreamed'⟩ := streamed_of_run hrun'
    have hparses := hstreamed.parses (unfinished_of_waits hreads hwaits)
    have hparses' := hstreamed'.parses
      (unfinished_of_waits (reads_of_run hrun' s' rfl) hwaits')
    rw [← hmore] at hparses'
    exact prefix_of_standsFor hstreamed.standsFor hstreamed'.standsFor
      (hparses.prefix_of_append WirePacket.prefixCode_words hparses')

/-- The run that reads a PUBACK has processed it. -/
theorem processes_wholePackets_puback :
    ∃ steps s, (readPath 4).Run (some (.initial 4)) steps (some s) ∧
      (∃ (wires : List WirePacket) (rest : Bytes),
        arrived steps = (wires.map WirePacket.bytes).flatten ++ rest ∧
          List.Forall₂ WirePacket.StandsFor wires (processed steps)) ∧
      processed steps = [.publishAck (.puback 1)] := by
  have hrun := Machine.run_exec (Option.some_get exactBufferRun_isSome).symm
  obtain ⟨⟨wires, rest, harrived, hstandsFor, -⟩, -⟩ := processes_wholePackets hrun
  exact ⟨_, _, hrun, ⟨wires, rest, harrived, hstandsFor⟩, rfl⟩

/-! ## Streams of well-formed packets -/

/-- The read path goes on: it has neither been asked to close nor met an error of the socket. -/
def Proceeds (s : ReadPath) : Prop :=
  match s.phase with
  | .idle | .reading _ _ _ | .completed none _ => True
  | .completed (some _) _ | .closed => False

/-- What remains of a stream of packets. -/
theorem Streamed.exists_left {wires all : List WirePacket} {q data : Bytes}
    (h : Streamed readBufferSize steps wires q)
    (hbegins : arrived steps ++ data <+: (all.map WirePacket.bytes).flatten) :
    ∃ left, all = wires ++ left ∧ q ++ data <+: (left.map WirePacket.bytes).flatten := by
  have hmem : ∀ wires : List WirePacket, ∀ w ∈ wires.map WirePacket.bytes,
      w ∈ WirePacket.words := by
    intro wires w hw
    obtain ⟨wire, -, rfl⟩ := List.mem_map.mp hw
    exact ⟨wire, rfl⟩
  obtain ⟨more, hmore⟩ := hbegins
  rw [h.arrived_eq, List.append_assoc, List.append_assoc] at hmore
  have hwires : wires.map WirePacket.bytes <+: all.map WirePacket.bytes :=
    WirePacket.prefixCode_words.prefix_of_flatten (hmem wires) (hmem all)
      WirePacket.prefixCode_words.not_prefix_nil (hmore.trans (List.append_nil _).symm)
  obtain ⟨left, rfl⟩ :=
    (List.prefix_map_iff_of_injective fun _ _ => WirePacket.bytes_injective).mp hwires
  refine ⟨left, rfl, more, ?_⟩
  rw [List.map_append, List.flatten_append] at hmore
  rw [List.append_assoc]
  exact List.append_cancel_left hmore

/-- Nothing in front of a stream of packets has a header that is too long. -/
theorem not_overlong_within {left : List WirePacket} {q : Bytes}
    (h : q <+: (left.map WirePacket.bytes).flatten) : headerOf q ≠ .overlong := by
  cases left with
  | nil =>
      rw [List.prefix_nil.mp h]
      nofun
  | cons wire left =>
      rw [List.map_cons, List.flatten_cons] at h
      rw [List.prefix_iff_eq_take.mp h, headerOf_take_packet]
      split <;> nofun

/-- A buffer into which every packet of the stream fits is not filled up by a part of one. -/
theorem not_filledUp_within {left : List WirePacket} {q : Bytes} {reader : FrameReader}
    (hsize : 0 < readBufferSize) (hfits : ∀ wire ∈ left, wire.bytes.length ≤ readBufferSize)
    (h : q <+: (left.map WirePacket.bytes).flatten) : ¬ FilledUp readBufferSize q reader := by
  intro hfilled
  have hfull := hfilled.full
  cases left with
  | nil =>
      rw [List.prefix_nil.mp h, List.length_nil] at hfull
      omega
  | cons wire left =>
      rw [List.map_cons, List.flatten_cons] at h
      have hfit := hfits wire List.mem_cons_self
      refine hfilled.unfinished.not_begins _ ⟨wire, rfl⟩ ?_
      exact List.prefix_of_prefix_length_le (List.prefix_append _ _) h (by omega)

/-- A frame that has been read from a stream of packets is the first of them. -/
theorem eq_head_of_frameRead {left : List WirePacket} {q : Bytes} {reader : FrameReader}
    {hlen rlen : Nat} (hread : FrameRead readBufferSize q reader hlen rlen)
    (h : q <+: (left.map WirePacket.bytes).flatten) : ∃ wire ∈ left, q = wire.bytes := by
  cases left with
  | nil =>
      have hheader := hread.header
      rw [List.prefix_nil.mp h] at hheader
      cases hheader
  | cons wire left =>
      rw [List.map_cons, List.flatten_cons] at h
      have hwire := wire.eq_of_prefix hread.header hread.length_eq h
      exact ⟨wire, List.mem_cons_self, hwire.1⟩

section Streams

variable {all : List WirePacket} {packets : List MqttPacket}

/-- A step within a stream of well-formed packets that fit into the read buffer does not fail,
and the read path goes on. -/
theorem proceeds_step {wires : List WirePacket} {e : ReadEvent}
    {result : Except Fault (ReadOutput × ReadPath)} (hsize : 0 < readBufferSize)
    (hall : ∀ wire ∈ all,
      wire.bytes.length ≤ readBufferSize ∧ ∃ packet, wire.StandsFor packet)
    (hreads : Reads readBufferSize (bytesRead steps) s)
    (hstreamed : Streamed readBufferSize steps wires (unprocessed steps s))
    (hproceeds : Proceeds s) (hsocket : ∀ ec, e ≠ .failed ec)
    (hbegins : arrived steps ++ e.data <+: (all.map WirePacket.bytes).flatten)
    (hstep : s.step readBufferSize e = some result) :
    ∃ o s', result = .ok (o, s') ∧ Proceeds s' := by
  obtain ⟨left, rfl, hleft⟩ := hstreamed.exists_left hbegins
  obtain ⟨reader, phase⟩ := s
  cases e with
  | readFrame =>
      cases phase with
      | idle =>
          obtain ⟨room, hframe, -⟩ := readFrame_spec hreads.1 hreads.2
          rw [ReadPath.step, Option.some.injEq, hframe] at hstep
          exact ⟨_, _, hstep.symm, trivial⟩
      | reading | completed | closed => cases hstep
  | received data =>
      cases phase with
      | reading view total room =>
          simp only [ReadPath.step] at hstep
          split at hstep
          · rename_i hallowed
            cases hstep
            rcases readSome_spec hreads hallowed.1 hallowed.2 with
              ⟨hover, -⟩ | ⟨-, o, s', hok, -, -⟩
            · exact absurd hover (not_overlong_within hleft)
            · refine ⟨o, s', hok, ?_⟩
              rcases (readSome_quiet hok).2 with ⟨_, _, _, hphase⟩ | ⟨_, hphase⟩
              · rw [Proceeds, hphase]
                trivial
              · rw [Proceeds, hphase]
                trivial
          · cases hstep
      | idle | completed | closed => cases hstep
  | failed ec => exact absurd rfl (hsocket ec)
  | onFrameRead =>
      rw [ReadEvent.data, List.append_nil] at hleft
      cases phase with
      | completed ec total =>
          cases ec with
          | some ec => exact hproceeds.elim
          | none =>
              rw [ReadPath.step, Option.some.injEq] at hstep
              subst hstep
              rcases hreads with ⟨hlen, rlen, hread⟩ | hfilled
              · have hframe := hread.frame_eq
                obtain ⟨wire, hmem, hwire⟩ := eq_head_of_frameRead hread hleft
                rw [hwire] at hread hframe
                obtain ⟨-, packet, hpacket⟩ := hall wire (List.mem_append_right _ hmem)
                obtain ⟨s', hok, hidle⟩ :=
                  decodePacket_of_ok hframe (decode_of_standsFor hread hpacket)
                refine ⟨_, s', hok, ?_⟩
                rw [Proceeds, hidle]
                trivial
              · refine absurd hfilled (not_filledUp_within hsize ?_ hleft)
                exact fun wire hw => (hall wire (List.mem_append_right _ hw)).1
      | idle | reading | closed => cases hstep

/-- A run within a stream of well-formed packets that fit into the read buffer does not fail, and
has processed the first packets of the stream. -/
theorem proceeds_of_run {u : Option ReadPath} (hsize : 0 < readBufferSize)
    (hpackets : List.Forall₂ WirePacket.StandsFor all packets)
    (hfits : ∀ wire ∈ all, wire.bytes.length ≤ readBufferSize)
    (hrun : (readPath readBufferSize).Run (some (.initial readBufferSize)) steps u)
    (harrived : arrived steps <+: (all.map WirePacket.bytes).flatten)
    (hsocket : ∀ x ∈ steps, ∀ ec, x.event ≠ .failed ec) :
    ∃ s, u = some s ∧ Proceeds s ∧
      ∃ wires left, all = wires ++ left ∧
        Streamed readBufferSize steps wires (unprocessed steps s) ∧
        unprocessed steps s <+: (left.map WirePacket.bytes).flatten ∧
        processed steps <+: packets := by
  have hall : ∀ wire ∈ all, wire.bytes.length ≤ readBufferSize ∧
      ∃ packet, wire.StandsFor packet := by
    intro wire hmem
    refine ⟨hfits wire hmem, ?_⟩
    clear hrun harrived hfits
    induction hpackets with
    | nil => cases hmem
    | cons hpacket _ ih =>
        rcases List.mem_cons.mp hmem with rfl | hmem
        · exact ⟨_, hpacket⟩
        · exact ih hmem
  have halive : ∃ s, u = some s ∧ Proceeds s := by
    refine hrun.snoc_induction (motive := fun steps u =>
      arrived steps <+: (all.map WirePacket.bytes).flatten →
        (∀ x ∈ steps, ∀ ec, x.event ≠ .failed ec) → ∃ s, u = some s ∧ Proceeds s)
      (fun _ _ => ⟨.initial readBufferSize, rfl, trivial⟩) ?_ harrived hsocket
    intro pre t e o u hpre hstep ih harrived hsocket
    rw [arrived_append_singleton] at harrived
    obtain ⟨t, rfl, hproceeds⟩ := ih ((List.prefix_append _ _).trans harrived)
      fun x hx => hsocket x (List.mem_append_left _ hx)
    obtain ⟨wires, hstreamed⟩ := streamed_of_run hpre
    have he := hsocket ⟨some t, e, o, u⟩ (List.mem_append_right _ List.mem_cons_self)
    rcases Machine.ofFallible_step_some hstep with
      ⟨failure, hresult, -, -⟩ | ⟨o', t', hresult, -, rfl⟩
    · obtain ⟨o', t', hok, -⟩ := proceeds_step hsize hall (reads_of_run hpre t rfl)
        hstreamed hproceeds he harrived hresult
      cases hok
    · obtain ⟨o', t', hok, hnext⟩ := proceeds_step hsize hall (reads_of_run hpre t rfl)
        hstreamed hproceeds he harrived hresult
      cases hok
      exact ⟨_, rfl, hnext⟩
  obtain ⟨s, rfl, hproceeds⟩ := halive
  obtain ⟨wires, hstreamed⟩ := streamed_of_run hrun
  rw [← List.append_nil (arrived steps)] at harrived
  obtain ⟨left, hwires, hleft⟩ := hstreamed.exists_left harrived
  rw [List.append_nil] at hleft
  refine ⟨s, rfl, hproceeds, wires, left, hwires, hstreamed, hleft, ?_⟩
  refine prefix_of_standsFor hstreamed.standsFor hpackets ?_
  rw [hwires, List.map_append]
  exact List.prefix_append _ _

/-- Once the whole stream has been received and the next bytes are waited for, nothing is left to
be processed. -/
theorem processed_of_waits (hsize : 0 < readBufferSize)
    (hpackets : List.Forall₂ WirePacket.StandsFor all packets)
    (hfits : ∀ wire ∈ all, wire.bytes.length ≤ readBufferSize)
    (hrun : (readPath readBufferSize).Run (some (.initial readBufferSize)) steps (some s))
    (harrived : arrived steps = (all.map WirePacket.bytes).flatten)
    (hsocket : ∀ x ∈ steps, ∀ ec, x.event ≠ .failed ec) (hwaits : Waits s) :
    processed steps = packets := by
  obtain ⟨_, hs, -, wires, left, rfl, hstreamed, hleft, hbegins⟩ :=
    proceeds_of_run hsize hpackets hfits hrun (harrived ▸ List.prefix_rfl) hsocket
  cases hs
  have hrest := unfinished_of_waits (reads_of_run hrun s rfl) hwaits
  have hnil : left = [] := by
    cases left with
    | nil => rfl
    | cons wire left =>
        -- otherwise the next packet of the stream has been received
        rw [hstreamed.arrived_eq, List.map_append, List.flatten_append,
          List.append_cancel_left_eq] at harrived
        refine absurd ?_ (hrest.not_begins _ ⟨wire, rfl⟩)
        rw [harrived]
        exact List.prefix_append _ _
  subst hnil
  apply hbegins.eq_of_length
  rw [← hstreamed.standsFor.length_eq, ← hpackets.length_eq, List.append_nil]

/-- A stream of well-formed packets that fit into the read buffer is processed to its end,
whatever the chunks in which it arrives. -/
theorem processes_stream {u : Option ReadPath} (hsize : 0 < readBufferSize)
    (hpackets : List.Forall₂ WirePacket.StandsFor all packets)
    (hfits : ∀ wire ∈ all, wire.bytes.length ≤ readBufferSize)
    (hrun : (readPath readBufferSize).Run (some (.initial readBufferSize)) steps u)
    (harrived : arrived steps <+: (all.map WirePacket.bytes).flatten)
    (hsocket : ∀ x ∈ steps, ∀ ec, x.event ≠ .failed ec) :
    ∃ s, u = some s ∧ Proceeds s ∧ processed steps <+: packets ∧
      (arrived steps = (all.map WirePacket.bytes).flatten → Waits s →
        processed steps = packets) := by
  obtain ⟨s, rfl, hproceeds, wires, left, -, -, -, hbegins⟩ :=
    proceeds_of_run hsize hpackets hfits hrun harrived hsocket
  exact ⟨s, rfl, hproceeds, hbegins, fun hall hwaits =>
    processed_of_waits hsize hpackets hfits hrun hall hsocket hwaits⟩

/-- The bytes of a PUBACK stand for it. -/
theorem standsFor_puback : puback.StandsFor (.publishAck (.puback 1)) :=
  WireFormat.publishAck (.puback 1) []

/-- The run that reads a PUBACK goes on. -/
theorem processes_stream_puback :
    ∃ steps s, (readPath 4).Run (some (.initial 4)) steps (some s) ∧ Proceeds s ∧
      processed steps <+: [.publishAck (.puback 1)] := by
  have hrun := Machine.run_exec (Option.some_get exactBufferRun_isSome).symm
  have hevents : (exactBufferRun.get exactBufferRun_isSome).1.map Step.event =
      [.readFrame, .received [0x40], .received [0x02], .received [0x00, 0x01], .onFrameRead] :=
    rfl
  have hsocket : ∀ x ∈ (exactBufferRun.get exactBufferRun_isSome).1,
      ∀ ec, x.event ≠ .failed ec := by
    intro x hx ec hfailed
    have hmem := List.mem_map_of_mem (f := Step.event) hx
    rw [hevents, hfailed] at hmem
    simp at hmem
  have hpackets : List.Forall₂ WirePacket.StandsFor [puback] [.publishAck (.puback 1)] :=
    .cons standsFor_puback .nil
  obtain ⟨s, hs, hproceeds, hbegins, -⟩ := processes_stream (Nat.succ_pos 3) hpackets
    (fun wire hmem => List.mem_singleton.mp hmem ▸ Nat.le_refl 4) hrun List.prefix_rfl hsocket
  exact ⟨_, s, hs ▸ hrun, hproceeds, hbegins⟩

end Streams

/-! ## Both ends of a connection -/

/-- A packet that the server sends, and the packet that its own decoders read back. -/
inductive ReadsBack : MqttPacket → MqttPacket → Prop
  | publish (p : Publish) (hencodable : Encodable (.publish p))
      (hdup : p.dup = true → p.qos ≠ .atMostOnce) (hreserved : p.qos ≠ .reserved)
      (htopic : WellFormedTopicName p.topic) :
      ReadsBack (.publish p) (.publish (asDecoded p))
  | publishAck (ack : PublishAck) : ReadsBack (.publishAck ack) (.publishAck ack)

/-- A packet that is sent is encoded as a packet on the wire that stands for what is read back. -/
theorem ReadsBack.exists_wire {sent packet : MqttPacket} (h : ReadsBack sent packet) :
    ∃ wire : WirePacket, encoding sent = .ok wire.bytes ∧ wire.StandsFor packet := by
  cases h with
  | publish p hencodable hdup hreserved htopic =>
      exact ⟨_, encoding_eq hencodable, standsFor_publish hencodable hdup hreserved htopic⟩
  | publishAck ack => exact ⟨_, encoding_eq (encodable_ack ack), standsFor_ack ack⟩

/-- What one end of a connection writes in packets is read in the same packets by the other end,
whatever the chunks in which it arrives there. -/
theorem reads_what_is_written {sent packets : List MqttPacket}
    (hpackets : List.Forall₂ ReadsBack sent packets) :
    ∃ encodings : List Bytes,
      List.Forall₂ (fun p bytes => encoding p = .ok bytes) sent encodings ∧
      ∀ (readBufferSize : Nat) (steps : List ReadStep) (u : Option ReadPath),
        0 < readBufferSize → (∀ bytes ∈ encodings, bytes.length ≤ readBufferSize) →
          (readPath readBufferSize).Run (some (.initial readBufferSize)) steps u →
            arrived steps = encodings.flatten →
            (∀ x ∈ steps, ∀ ec, x.event ≠ .failed ec) →
              ∃ s, u = some s ∧ Proceeds s ∧ (Waits s → processed steps = packets) := by
  have hwires : ∃ wires : List WirePacket,
      List.Forall₂ (fun p wire => encoding p = .ok wire.bytes) sent wires ∧
        List.Forall₂ WirePacket.StandsFor wires packets := by
    induction hpackets with
    | nil => exact ⟨[], .nil, .nil⟩
    | cons hpacket _ ih =>
        obtain ⟨wires, hsent, harrived⟩ := ih
        obtain ⟨wire, hencoding, hwire⟩ := hpacket.exists_wire
        exact ⟨wire :: wires, .cons hencoding hsent, .cons hwire harrived⟩
  obtain ⟨wires, hsent, hstandsFor⟩ := hwires
  refine ⟨wires.map WirePacket.bytes, List.forall₂_map_right_iff.mpr hsent, ?_⟩
  intro readBufferSize steps u hsize hfits hrun harrived hsocket
  have hfits' : ∀ wire ∈ wires, wire.bytes.length ≤ readBufferSize :=
    fun wire hmem => hfits _ (List.mem_map_of_mem hmem)
  obtain ⟨s, rfl, hproceeds, -⟩ := proceeds_of_run hsize hstandsFor hfits' hrun
    (harrived ▸ List.prefix_rfl) hsocket
  exact ⟨s, rfl, hproceeds, fun hwaits =>
    processed_of_waits hsize hstandsFor hfits' hrun harrived hsocket hwaits⟩

/-- A PUBLISH with quality of service 1. -/
def writtenPublish : Publish := .create false .atLeastOnce true [0x61] 7 [0x62]

/-- The socket delivers it in four parts, and then a PUBREL in three. -/
def twoPacketsEvents : List ReadEvent :=
  [.readFrame, .received [0x33], .received [0x06], .received [0x00, 0x01, 0x61],
    .received [0x00, 0x07, 0x62], .onFrameRead, .readFrame, .received [0x62],
    .received [0x02], .received [0x00, 0x02], .onFrameRead]

/-- What is written as a PUBLISH and a PUBREL is read as the two of them. -/
theorem reads_what_is_written_twoPackets :
    ∃ steps s, (readPath 8).Run (some (.initial 8)) steps (some s) ∧
      processed steps = [.publish (asDecoded writtenPublish), .publishAck (.pubrel 2)] := by
  obtain ⟨steps, s, hexec, hidle⟩ : ∃ steps s,
      (readPath 8).exec (some (.initial 8)) twoPacketsEvents = some (steps, some s) ∧
        s.phase = .idle :=
    ⟨_, _, rfl, rfl⟩
  have hevents := Machine.events_of_exec hexec
  have htopic : writtenPublish.topic.length ≤ 65535 := by decide
  have hsample : ReadsBack (.publish writtenPublish) (.publish (asDecoded writtenPublish)) :=
    .publish _ ⟨htopic, by decide, rfl⟩ (by decide) (by decide) (by decide)
  obtain ⟨encodings, hencodings, hreads⟩ := reads_what_is_written
    (.cons hsample (.cons (.publishAck (.pubrel 2)) .nil))
  obtain rfl : encodings =
      [[0x33, 0x06, 0x00, 0x01, 0x61, 0x00, 0x07, 0x62], [0x62, 0x02, 0x00, 0x02]] := by
    cases hencodings with
    | cons hfirst hrest =>
        cases hrest with
        | cons hsecond hnil =>
            cases hnil
            cases hfirst
            cases hsecond
            rfl
  have harrived : arrived steps = (steps.map Step.event).flatMap ReadEvent.data := by
    rw [List.flatMap_map]
    rfl
  rw [hevents] at harrived
  have hsocket : ∀ x ∈ steps, ∀ ec, x.event ≠ .failed ec := by
    intro x hx ec hfailed
    have hmem := List.mem_map_of_mem (f := Step.event) hx
    rw [hevents, hfailed] at hmem
    simp [twoPacketsEvents] at hmem
  obtain ⟨s', hs, -, hprocessed⟩ := hreads 8 steps _ (Nat.succ_pos 7) (by decide)
    (Machine.run_exec hexec) harrived hsocket
  cases hs
  refine ⟨steps, s, Machine.run_exec hexec, hprocessed ?_⟩
  rw [Waits, hidle]
  trivial

end Connection
end WallyIo
