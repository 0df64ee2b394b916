import WallyIo.Codec.PacketDecoder
import WallyIo.Dispatch.Common
import WallyIo.Library.Machine

/-!
# The read path of a connection

A connection reads one frame at a time.  The read operation remembers block and
size of the read buffer when it begins, writes what the socket delivers into that
block and asks the frame reader, its completion condition, how many bytes are
missing.  It ends when the answer is zero or when as many bytes have arrived as
the buffer held at the beginning.  Then the frame is decoded.

Main results:

- Theorem {lit}`readSome_spec`: how the read operation continues after some bytes
  have arrived.
- Theorem {lit}`reads_of_run`: after every run, the state of the read path agrees
  with the bytes that have been read since the last frame began.
-/

namespace WallyIo
namespace Connection

open Protocol
open Library
open Codec
open Dispatch

/-! ## The model -/

/-- Where the read path of a connection stands. -/
inductive ReadPhase
  /-- No read operation is under way. -/
  | idle
  /-- The socket has been asked for at most {lit}`room` bytes. -/
  | reading (view : View) (total room : Nat)
  /-- The read operation has ended, and its handler will run. -/
  | completed (ec : Option ErrorCode) (total : Nat)
  /-- The connection has been asked to close. -/
  | closed
deriving DecidableEq

/-- The frame reader with the read buffer, and the read operation. -/
structure ReadPath where
  reader : FrameReader
  phase : ReadPhase

/-- What happens to the read path. -/
inductive ReadEvent
  | readFrame
  | received (data : Bytes)
  | failed (ec : ErrorCode)
  | onFrameRead
deriving DecidableEq

/-- How a step of the read path ends. -/
inductive ReadOutput
  /-- The socket is asked for more bytes. -/
  | requested (n : Nat)
  /-- The handler of the read operation is called. -/
  | completed
  /-- {lit}`process_decoded_packet` is called. -/
  | processed (packet : MqttPacket)
  /-- {lit}`connection_close_requested` is called. -/
  | closeRequested (message : String) (reason : DisconnectReason)
  /-- An aborted operation is ignored. -/
  | ignored
deriving DecidableEq

/-- Start to read a frame. -/
def readFrame (reader : FrameReader) : Except Fault (ReadOutput × ReadPath) := do
  let view := reader.buffer.view
  let (n, reader) ← reader.call false 0
  let room := min n view.size
  .ok (.requested room, ⟨reader, .reading view 0 room⟩)

/-- The read operation after the socket has delivered some bytes. -/
def readSome (reader : FrameReader) (view : View) (total : Nat) (data : Bytes) :
    Except Fault (ReadOutput × ReadPath) := do
  let reader := { reader with buffer := reader.buffer.write view total data }
  let total := total + data.length
  if data = [] then
    .ok (.completed, ⟨reader, .completed none total⟩)
  else
    let (n, reader) ← reader.call false total
    if n = 0 ∨ total = view.size then
      .ok (.completed, ⟨reader, .completed none total⟩)
    else
      let room := min n (view.size - total)
      .ok (.requested room, ⟨reader, .reading view total room⟩)

/-- The read operation after an error. -/
def readError (reader : FrameReader) (total : Nat) (ec : ErrorCode) :
    Except Fault (ReadOutput × ReadPath) := do
  let (_, reader) ← reader.call true total
  .ok (.completed, ⟨reader, .completed (some ec) total⟩)

/-- Decode the frame that has been read. -/
def decodePacket (readBufferSize : Nat) (reader : FrameReader) :
    Except Fault (ReadOutput × ReadPath) :=
  match reader.frame with
  | none => .error .assertion
  | some frame =>
      match decode reader.buffer.elements frame with
      | .ok packet =>
          .ok (.processed packet,
            ⟨{ reader.reset with buffer := reader.buffer.resize readBufferSize 0x00 }, .idle⟩)
      | .error (.malformedMqttPacket what) =>
          .ok (.closeRequested ("<<< Malformed control packet header: " ++ what)
            .protocolViolation, ⟨reader, .closed⟩)
      | .error failure => .error failure

/-- Deal with an error of the read operation. -/
def onReadFailed (reader : FrameReader) (ec : ErrorCode) (bytesTransferred : Nat) :
    ReadOutput × ReadPath :=
  match ec with
  | .operationAborted => (.ignored, ⟨reader, .closed⟩)
  | .other message =>
      (.closeRequested ("<<< NETWORK ERROR (" ++ message ++ ") after [" ++
        toString bytesTransferred ++ "] bytes transferred") .networkOrServerFailure,
        ⟨reader, .closed⟩)

/-- The handler of the read operation. -/
def onFrameRead (readBufferSize : Nat) (reader : FrameReader) (ec : Option ErrorCode)
    (bytesTransferred : Nat) : Except Fault (ReadOutput × ReadPath) :=
  match ec with
  | some ec => .ok (onReadFailed reader ec bytesTransferred)
  | none => decodePacket readBufferSize reader

/-- A step of the read path.  The socket delivers at least one byte, unless there
is no room for any, and no more bytes than it has been asked for. -/
def ReadPath.step (readBufferSize : Nat) (s : ReadPath) :
    ReadEvent → Option (Except Fault (ReadOutput × ReadPath))
  | .readFrame =>
      match s.phase with
      | .idle => some (readFrame s.reader)
      | _ => none
  | .received data =>
      match s.phase with
      | .reading view total room =>
          if data.length ≤ room ∧ (room = 0 ∨ data ≠ []) then
            some (readSome s.reader view total data)
          else none
      | _ => none
  | .failed ec =>
      match s.phase with
      | .reading _ total _ => some (readError s.reader total ec)
      | _ => none
  | .onFrameRead =>
      match s.phase with
      | .completed ec total => some (onFrameRead readBufferSize s.reader ec total)
      | _ => none

/-- The read path as a machine.  A failure that is not caught ends it. -/
def readPath (readBufferSize : Nat) :
    Machine (Option ReadPath) ReadEvent (Except Fault ReadOutput) :=
  Machine.ofFallible (ReadPath.step readBufferSize)

/-- The read path of a new connection. -/
def ReadPath.initial (readBufferSize : Nat) : ReadPath :=
  ⟨⟨HeapVector.ofList (List.replicate readBufferSize 0x00), none⟩, .idle⟩

/-- An executed step of the read path. -/
abbrev ReadStep := Step (Option ReadPath) ReadEvent (Except Fault ReadOutput)

/-- The bytes of the current frame after one more event. -/
def bytesAfter (q : Bytes) : ReadEvent → Bytes
  | .readFrame => []
  | .received data => q ++ data
  | .failed _ => q
  | .onFrameRead => q

/-- The bytes that have been read since the current frame began. -/
def bytesRead (steps : List ReadStep) : Bytes :=
  steps.foldl (fun q x => bytesAfter q x.event) []

@[simp]
theorem bytesRead_nil : bytesRead [] = [] := rfl

@[simp]
theorem bytesRead_append_singleton (steps : List ReadStep) (x : ReadStep) :
    bytesRead (steps ++ [x]) = bytesAfter (bytesRead steps) x.event := by
  simp [bytesRead]

/-! ## The state of the read path in terms of the bytes read -/

/-- The bytes that are missing according to the header, or one if there is none. -/
def missing (q : Bytes) : Nat :=
  match headerOf q with
  | .complete hlen rlen => hlen + rlen - q.length
  | _ => 1

/-- The buffer while bytes are missing.  As long as the packet fits, the buffer has
its initial size and holds all bytes; otherwise it has been expanded and holds at
least the header. -/
inductive Stored (readBufferSize : Nat) (q : Bytes) (buffer : HeapVector UInt8)
    (view : View) : Prop
  | whole (storage_eq : buffer.storage = view.storage)
      (size_eq : buffer.size = readBufferSize)
      (memory_eq : buffer.memory.take q.length = q)
      (fits : ∀ hlen rlen, headerOf q = .complete hlen rlen → hlen + rlen ≤ readBufferSize)
  | large (hlen rlen : Nat) (header : headerOf q = .complete hlen rlen)
      (exceeds : readBufferSize < hlen + rlen) (size_eq : buffer.size = hlen + rlen)
      (memory_eq : buffer.memory.take hlen = q.take hlen)

/-- A read operation that has read the bytes {lit}`q` and waits for more. -/
structure Reading (readBufferSize : Nat) (q : Bytes) (reader : FrameReader) (view : View)
    (total room : Nat) : Prop where
  total_eq : total = q.length
  view_size : view.size = readBufferSize
  no_frame : reader.frame = none
  room_eq : room = min (missing q) (readBufferSize - q.length)
  missing_pos : 0 < missing q
  not_full : q.length < readBufferSize ∨ q = []
  not_overlong : headerOf q ≠ .overlong
  stored : Stored readBufferSize q reader.buffer view

/-- The frame that the bytes {lit}`q` form. -/
structure FrameRead (readBufferSize : Nat) (q : Bytes) (reader : FrameReader)
    (hlen rlen : Nat) : Prop where
  header : headerOf q = .complete hlen rlen
  length_eq : q.length = hlen + rlen
  fits : hlen + rlen ≤ readBufferSize
  frame_eq : reader.frame = some ⟨q.getD 0 0, hlen, hlen + rlen, Nat.le_add_right _ _⟩
  size_eq : reader.buffer.size = readBufferSize
  elements_eq : reader.buffer.elements.take (hlen + rlen) = q

/-- Bytes that do not contain a whole packet. -/
def Unfinished (q : Bytes) : Prop :=
  ∀ hlen rlen, headerOf q = .complete hlen rlen → q.length < hlen + rlen

/-- The read operation has ended because the buffer was full. -/
structure FilledUp (readBufferSize : Nat) (q : Bytes) (reader : FrameReader) : Prop where
  no_frame : reader.frame = none
  full : q.length = readBufferSize
  unfinished : Unfinished q

/-- The state of the read path after the bytes {lit}`q` of the current frame. -/
def Reads (readBufferSize : Nat) (q : Bytes) (s : ReadPath) : Prop :=
  match s.phase with
  | .idle => s.reader.frame = none ∧ s.reader.buffer.size = readBufferSize
  | .reading view total room => Reading readBufferSize q s.reader view total room
  | .completed none _ =>
      (∃ hlen rlen, FrameRead readBufferSize q s.reader hlen rlen) ∨
        FilledUp readBufferSize q s.reader
  | .completed (some _) _ => True
  | .closed => True

variable {readBufferSize : Nat}

/-- The buffer is at least as large as it was at the beginning. -/
theorem Stored.le_size {q : Bytes} {buffer : HeapVector UInt8} {view : View}
    (h : Stored readBufferSize q buffer view) : readBufferSize ≤ buffer.size := by
  cases h with
  | whole _ hsize => exact Nat.le_of_eq hsize.symm
  | large hlen rlen _ hexceeds hsize => omega

/-- A read operation begins without any bytes. -/
theorem readFrame_spec {reader : FrameReader} (hframe : reader.frame = none)
    (hsize : reader.buffer.size = readBufferSize) :
    ∃ room, readFrame reader = .ok (.requested room,
        ⟨reader, .reading reader.buffer.view 0 room⟩) ∧
      Reading readBufferSize [] reader reader.buffer.view 0 room := by
  have hcall : reader.call false 0 = .ok (1, reader) :=
    FrameReader.call_of_incomplete (Nat.zero_le _) rfl
  refine ⟨min 1 reader.buffer.size, ?_, ?_⟩
  · unfold readFrame
    rw [hcall]
    rfl
  · have hstored : Stored readBufferSize [] reader.buffer reader.buffer.view :=
      .whole rfl hsize rfl (fun hlen rlen h => by cases h)
    have hroom : min 1 reader.buffer.size = min (missing []) (readBufferSize - 0) := by
      rw [hsize]
      rfl
    exact ⟨rfl, hsize, hframe, hroom, Nat.one_pos, Or.inr rfl,
      (fun h => by cases h), hstored⟩

/-! ## One more delivery -/

/-- Bytes without a header do not contain a packet. -/
theorem unfinished_of_incomplete {q : Bytes} (h : headerOf q = .incomplete) :
    Unfinished q := by
  intro hlen rlen hheader
  rw [h] at hheader
  cases hheader

/-- Bytes that are fewer than announced do not contain a packet. -/
theorem unfinished_of_lt {q : Bytes} {hlen rlen : Nat} (h : headerOf q = .complete hlen rlen)
    (hlt : q.length < hlen + rlen) : Unfinished q := by
  intro hlen' rlen' hheader
  rw [h] at hheader
  cases hheader
  exact hlt

/-- Bytes that do not contain a packet are none. -/
theorem Unfinished.not_packet {q : Bytes} (h : Unfinished q) :
    ¬ ∃ packet : WirePacket, packet.bytes = q := by
  rw [WirePacket.exists_iff]
  rintro ⟨hlen, rlen, hheader, hlength⟩
  have hlt := h hlen rlen hheader
  omega

namespace Reading

variable {q data : Bytes} {reader : FrameReader} {view : View} {total room : Nat}

/-- The socket never delivers more than the bytes of one packet. -/
theorem length_le (h : Reading readBufferSize q reader view total room)
    (hdata : data.length ≤ room) {hlen rlen : Nat}
    (hheader : headerOf (q ++ data) = .complete hlen rlen) :
    q.length + data.length ≤ hlen + rlen := by
  have hroom := h.room_eq
  have hmissing := h.missing_pos
  unfold missing at hroom hmissing
  cases hq : headerOf q with
  | complete hlen' rlen' =>
      have hsame := headerOf_append hq data
      rw [hheader] at hsame
      cases hsame
      rw [hq] at hroom hmissing
      simp only at hroom hmissing
      omega
  | incomplete =>
      rw [hq] at hroom
      simp only at hroom
      -- the last byte has completed the header
      have hlast : q.length < hlen := by
        by_contra hle
        have htake := headerOf_take (k := q.length) hheader (by omega)
        rw [List.take_left', hq] at htake
        · cases htake
        · rfl
      omega
  | overlong => exact absurd hq h.not_overlong

/-- A delivery does not overfill the buffer. -/
theorem length_le_size (h : Reading readBufferSize q reader view total room)
    (hdata : data.length ≤ room) : q.length + data.length ≤ readBufferSize := by
  have hroom := h.room_eq
  rcases h.not_full with hlt | rfl
  · omega
  · simp only [List.length_nil] at *
    omega

/-- The bytes read lie inside of the buffer. -/
theorem total_le (h : Reading readBufferSize q reader view total room) :
    total ≤ reader.buffer.size := by
  have htotal := h.total_eq
  have hle : q.length + ([] : Bytes).length ≤ readBufferSize :=
    h.length_le_size (Nat.zero_le _)
  have hbuffer := h.stored.le_size
  simp only [List.length_nil] at hle
  omega

/-- The socket delivers nothing only if the buffer has no room at all. -/
theorem nil_of_no_room (h : Reading readBufferSize q reader view total room)
    (hroom : room = 0) : q = [] ∧ readBufferSize = 0 := by
  have heq := h.room_eq
  have hmissing := h.missing_pos
  rcases h.not_full with hlt | rfl
  · omega
  · simp only [List.length_nil] at heq
    exact ⟨rfl, by omega⟩

end Reading

variable {q data : Bytes} {reader : FrameReader} {view : View} {total room n : Nat}

/-- The frame reader after the socket has delivered some bytes. -/
def delivered (reader : FrameReader) (view : View) (total : Nat) (data : Bytes) :
    FrameReader :=
  { reader with buffer := reader.buffer.write view total data }

@[simp]
theorem frame_delivered :
    (delivered reader view total data).frame = reader.frame := rfl

@[simp]
theorem size_delivered :
    (delivered reader view total data).buffer.size = reader.buffer.size := by
  simp [delivered]

/-- How the read operation continues, given the answer of the frame reader. -/
theorem readSome_of_call {reader' : FrameReader} (hne : data ≠ [])
    (hcall : (delivered reader view total data).call false (total + data.length) =
      .ok (n, reader')) :
    readSome reader view total data =
      if n = 0 ∨ total + data.length = view.size then
        .ok (.completed, ⟨reader', .completed none (total + data.length)⟩)
      else
        .ok (.requested (min n (view.size - (total + data.length))),
          ⟨reader', .reading view (total + data.length)
            (min n (view.size - (total + data.length)))⟩) := by
  unfold delivered at hcall
  unfold readSome
  simp only [hne, if_false, hcall, bind, Except.bind]

/-- An exception of the frame reader leaves the read operation. -/
theorem readSome_of_error {failure : Fault} (hne : data ≠ [])
    (hcall : (delivered reader view total data).call false (total + data.length) =
      .error failure) : readSome reader view total data = .error failure := by
  unfold delivered at hcall
  unfold readSome
  simp only [hne, if_false, hcall, bind, Except.bind]

/-- How a delivery ends unless the frame reader throws. -/
def Continues (readBufferSize : Nat) (q data : Bytes) (reader : FrameReader) (view : View)
    (total : Nat) : Prop :=
  ∃ o s, readSome reader view total data = .ok (o, s) ∧
    (o = .completed ∨ ∃ n, o = .requested n) ∧ Reads readBufferSize (q ++ data) s

/-- If bytes are still missing, the read operation asks for them, unless the buffer
is full. -/
theorem continues_of_missing {reader' : FrameReader}
    (h : Reading readBufferSize q reader view total room) (hdata : data.length ≤ room)
    (hne : data ≠ [])
    (hcall : (delivered reader view total data).call false (total + data.length) =
      .ok (missing (q ++ data), reader'))
    (hframe : reader'.frame = none) (hmissing : 0 < missing (q ++ data))
    (hoverlong : headerOf (q ++ data) ≠ .overlong)
    (hunfinished : Unfinished (q ++ data))
    (hstored : Stored readBufferSize (q ++ data) reader'.buffer view) :
    Continues readBufferSize q data reader view total := by
  have htotal := h.total_eq
  have hview := h.view_size
  have hlength : (q ++ data).length = q.length + data.length := List.length_append
  have hle := h.length_le_size hdata
  unfold Continues
  rw [readSome_of_call hne hcall]
  by_cases hfull : total + data.length = view.size
  · rw [if_pos (Or.inr hfull)]
    refine ⟨_, _, rfl, Or.inl rfl, Or.inr ?_⟩
    exact ⟨hframe, by omega, hunfinished⟩
  · rw [if_neg (by omega)]
    refine ⟨_, _, rfl, Or.inr ⟨_, rfl⟩, ?_⟩
    exact ⟨by omega, hview, hframe, by rw [hlength, htotal, hview], hmissing,
      Or.inl (by omega), hoverlong, hstored⟩

/-- The missing bytes according to a header. -/
theorem missing_of_complete {hlen rlen : Nat} (hheader : headerOf q = .complete hlen rlen) :
    missing q = hlen + rlen - q.length := by
  unfold missing
  rw [hheader]

/-- The buffer has its original size and begins with all bytes read. -/
structure InBuffer (readBufferSize : Nat) (q : Bytes) (reader : FrameReader) (view : View) :
    Prop where
  storage_eq : reader.buffer.storage = view.storage
  size_eq : reader.buffer.size = readBufferSize
  memory_eq : reader.buffer.memory.take q.length = q
  length_le : q.length ≤ readBufferSize

/-- The frame reader sees these bytes. -/
theorem InBuffer.elements (h : InBuffer readBufferSize q reader view) :
    reader.buffer.elements.take q.length = q := by
  have hle : q.length ≤ reader.buffer.size := h.size_eq.symm ▸ h.length_le
  rw [HeapVector.take_elements _ hle, h.memory_eq]

/-- A delivery is appended to what is in the buffer. -/
theorem inBuffer_delivered (h : Reading readBufferSize q reader view total room)
    (hdata : data.length ≤ room) (hstorage : reader.buffer.storage = view.storage)
    (hsize : reader.buffer.size = readBufferSize)
    (hmemory : reader.buffer.memory.take q.length = q) :
    InBuffer readBufferSize (q ++ data) (delivered reader view total data) view := by
  have hle := h.length_le_size hdata
  refine ⟨by simp [delivered, hstorage], by rw [size_delivered, hsize], ?_, ?_⟩
  · have hwrite := reader.buffer.take_memory_write total data hstorage
      (by rw [h.total_eq]; omega)
    rw [h.total_eq, hmemory] at hwrite
    rw [List.length_append, h.total_eq]
    exact hwrite
  · rw [List.length_append]
    exact hle

/-- A delivery that leaves the header incomplete. -/
theorem continues_of_incomplete (h : Reading readBufferSize q reader view total room)
    (hdata : data.length ≤ room) (hne : data ≠ [])
    (hbuffer : InBuffer readBufferSize (q ++ data) (delivered reader view total data) view)
    (hheader : headerOf (q ++ data) = .incomplete) :
    Continues readBufferSize q data reader view total := by
  have hlength : (q ++ data).length = total + data.length := by
    rw [List.length_append, h.total_eq]
  have hsize := hbuffer.size_eq
  have hle := hbuffer.length_le
  have hmissing : missing (q ++ data) = 1 := by
    unfold missing
    rw [hheader]
  have hcall : (delivered reader view total data).call false (total + data.length) =
      .ok (1, delivered reader view total data) := by
    apply FrameReader.call_of_incomplete
    · omega
    · rw [← hlength, hbuffer.elements, hheader]
  apply continues_of_missing h hdata hne (by rw [hmissing]; exact hcall)
  · exact h.no_frame
  · omega
  · rw [hheader]
    intro hover
    cases hover
  · exact unfinished_of_incomplete hheader
  · refine .whole hbuffer.storage_eq hbuffer.size_eq hbuffer.memory_eq ?_
    intro hlen rlen hcomplete
    rw [hheader] at hcomplete
    cases hcomplete

/-- A delivery that completes the packet. -/
theorem continues_of_last (h : Reading readBufferSize q reader view total room)
    (hne : data ≠ [])
    (hbuffer : InBuffer readBufferSize (q ++ data) (delivered reader view total data) view)
    {hlen rlen : Nat} (hheader : headerOf (q ++ data) = .complete hlen rlen)
    (hdone : (q ++ data).length = hlen + rlen) :
    Continues readBufferSize q data reader view total := by
  have hlength : (q ++ data).length = total + data.length := by
    rw [List.length_append, h.total_eq]
  have hsize := hbuffer.size_eq
  have hle := hbuffer.length_le
  have hsum : total + data.length = hlen + rlen := hlength.symm.trans hdone
  have helements := hbuffer.elements
  have hcall := FrameReader.call_of_complete (show total + data.length ≤
      (delivered reader view total data).buffer.size by omega)
    (by rw [← hlength, helements, hheader]) hsum
  rw [hdone] at helements
  have hfirst : (delivered reader view total data).buffer.elements.getD 0 0 =
      (q ++ data).getD 0 0 := by
    have hpos := (headerOf_complete_bounds hheader).1
    rw [← helements, List.getD_eq_getElem?_getD, List.getD_eq_getElem?_getD,
      List.getElem?_take_of_lt (by omega)]
  unfold Continues
  rw [readSome_of_call hne hcall, if_pos (Or.inl rfl)]
  refine ⟨_, _, rfl, Or.inl rfl, Or.inl ⟨hlen, rlen, ?_⟩⟩
  refine ⟨hheader, hdone, by omega, ?_, hsize, helements⟩
  simp only [hfirst]

/-- A delivery after which bytes of the packet are missing. -/
theorem continues_of_part (h : Reading readBufferSize q reader view total room)
    (hdata : data.length ≤ room) (hne : data ≠ [])
    (hbuffer : InBuffer readBufferSize (q ++ data) (delivered reader view total data) view)
    {hlen rlen : Nat} (hheader : headerOf (q ++ data) = .complete hlen rlen)
    (hlt : (q ++ data).length < hlen + rlen) :
    Continues readBufferSize q data reader view total := by
  have hlength : (q ++ data).length = total + data.length := by
    rw [List.length_append, h.total_eq]
  have hsize := hbuffer.size_eq
  have hle := hbuffer.length_le
  have hbounds := headerOf_complete_bounds hheader
  have hmissing := missing_of_complete hheader
  have hcall := FrameReader.call_of_partial hlen rlen (show total + data.length ≤
      (delivered reader view total data).buffer.size by omega)
    (by rw [← hlength, hbuffer.elements, hheader]) (by omega)
  have hnumber : hlen + rlen - (total + data.length) = missing (q ++ data) := by omega
  rw [hnumber] at hcall
  apply continues_of_missing h hdata hne hcall
  · exact h.no_frame
  · omega
  · rw [hheader]
    intro hover
    cases hover
  · exact unfinished_of_lt hheader hlt
  · by_cases hfits : hlen + rlen ≤ readBufferSize
    · have hexpand : (delivered reader view total data).expand (hlen + rlen) =
          (delivered reader view total data).buffer :=
        FrameReader.expand_of_le _ (by omega)
      simp only [hexpand]
      refine .whole hbuffer.storage_eq hsize hbuffer.memory_eq ?_
      intro hlen' rlen' hcomplete
      rw [hheader] at hcomplete
      cases hcomplete
      exact hfits
    · -- the buffer is replaced by a larger one, which begins with the same bytes
      refine .large hlen rlen hheader (by omega) ?_ ?_
      · rw [FrameReader.size_expand]
        omega
      · rw [FrameReader.take_memory_expand (by omega), ← congrArg (List.take hlen)
          hbuffer.memory_eq, List.take_take, Nat.min_eq_left (by omega)]

/-- A delivery into a buffer that holds all bytes of the packet. -/
theorem continues_of_whole (h : Reading readBufferSize q reader view total room)
    (hdata : data.length ≤ room) (hroom : room = 0 ∨ data ≠ [])
    (hstorage : reader.buffer.storage = view.storage)
    (hsize : reader.buffer.size = readBufferSize)
    (hmemory : reader.buffer.memory.take q.length = q) :
    (headerOf (q ++ data) = .overlong ∧
        readSome reader view total data = .error (.malformedMqttPacket
          "Encoded remaining length exceeds maximum allowed value")) ∨
      (headerOf (q ++ data) ≠ .overlong ∧
        Continues readBufferSize q data reader view total) := by
  have hbuffer := inBuffer_delivered h hdata hstorage hsize hmemory
  by_cases hne : data = []
  · -- without room for a single byte the read operation ends at once
    subst hne
    rcases hroom with hzero | hne
    · rcases h.nil_of_no_room hzero with ⟨rfl, hempty⟩
      refine Or.inr ⟨(fun hover => by cases hover), _, _, rfl, Or.inl rfl, Or.inr ?_⟩
      exact ⟨h.no_frame, by simp [hempty], unfinished_of_incomplete rfl⟩
    · exact absurd rfl hne
  · cases hheader : headerOf (q ++ data) with
    | overlong =>
        have hlength : (q ++ data).length = total + data.length := by
          rw [List.length_append, h.total_eq]
        refine Or.inl ⟨rfl, readSome_of_error hne (FrameReader.call_of_overlong ?_ ?_)⟩
        · rw [hbuffer.size_eq, ← hlength]
          exact hbuffer.length_le
        · rw [← hlength, hbuffer.elements, hheader]
    | incomplete =>
        refine Or.inr ⟨fun hover => (by cases hover), ?_⟩
        exact continues_of_incomplete h hdata hne hbuffer hheader
    | complete hlen rlen =>
        refine Or.inr ⟨fun hover => (by cases hover), ?_⟩
        have hbytes : (q ++ data).length ≤ hlen + rlen := by
          rw [List.length_append]
          exact h.length_le hdata hheader
        rcases Nat.eq_or_lt_of_le hbytes with hdone | hlt
        · exact continues_of_last h hne hbuffer hheader hdone
        · exact continues_of_part h hdata hne hbuffer hheader hlt

/-- A delivery while a packet is being read that does not fit. -/
theorem continues_of_large (h : Reading readBufferSize q reader view total room)
    (hdata : data.length ≤ room) (hroom : room = 0 ∨ data ≠ []) {hlen rlen : Nat}
    (hheader : headerOf q = .complete hlen rlen) (hexceeds : readBufferSize < hlen + rlen)
    (hsize : reader.buffer.size = hlen + rlen)
    (hmemory : reader.buffer.memory.take hlen = q.take hlen) :
    headerOf (q ++ data) ≠ .overlong ∧
      Continues readBufferSize q data reader view total := by
  have htotal := h.total_eq
  have hle := h.length_le_size hdata
  have hbounds := headerOf_complete_bounds hheader
  have hlength : (q ++ data).length = q.length + data.length := List.length_append
  have hheader' : headerOf (q ++ data) = .complete hlen rlen := headerOf_append hheader data
  have hne : data ≠ [] := by
    rcases hroom with hzero | hne
    · rcases h.nil_of_no_room hzero with ⟨rfl, -⟩
      cases hheader
    · exact hne
  have hsize' : (delivered reader view total data).buffer.size = hlen + rlen := by
    rw [size_delivered, hsize]
  have hmemory' : (delivered reader view total data).buffer.memory.take hlen =
      q.take hlen := by
    rw [← hmemory]
    exact reader.buffer.take_memory_write_of_le data (by omega) (by omega)
  -- the header is still in the buffer, whatever has become of the other bytes
  have hfound : headerOf ((delivered reader view total data).buffer.elements.take
      (total + data.length)) = .complete hlen rlen := by
    have hfront : ((delivered reader view total data).buffer.elements.take
        (total + data.length)).take hlen = q.take hlen := by
      rw [List.take_take, Nat.min_eq_left (by omega), HeapVector.take_elements _ (by omega),
        hmemory']
    rw [← List.take_append_drop hlen ((delivered reader view total data).buffer.elements.take
      (total + data.length)), hfront]
    exact headerOf_append (headerOf_take hheader (Nat.le_refl _)) _
  have hcall := FrameReader.call_of_partial hlen rlen (n := total + data.length) (by omega)
    hfound (by omega)
  have hnumber : hlen + rlen - (total + data.length) = missing (q ++ data) := by
    rw [missing_of_complete hheader']
    omega
  rw [hnumber] at hcall
  have hoverlong : headerOf (q ++ data) ≠ .overlong := by
    rw [hheader']
    intro hover
    cases hover
  refine ⟨hoverlong, ?_⟩
  apply continues_of_missing h hdata hne hcall
  · exact h.no_frame
  · rw [missing_of_complete hheader']
    omega
  · exact hoverlong
  · exact unfinished_of_lt hheader' (by omega)
  · have hexpand : (delivered reader view total data).expand (hlen + rlen) =
        (delivered reader view total data).buffer :=
      FrameReader.expand_of_le _ (by omega)
    simp only [hexpand]
    refine .large hlen rlen hheader' hexceeds hsize' ?_
    rw [hmemory', List.take_append_of_le_length (by omega)]

/-- How the read operation continues after some bytes have arrived. -/
theorem readSome_spec (h : Reading readBufferSize q reader view total room)
    (hdata : data.length ≤ room) (hroom : room = 0 ∨ data ≠ []) :
    (headerOf (q ++ data) = .overlong ∧
        readSome reader view total data = .error (.malformedMqttPacket
          "Encoded remaining length exceeds maximum allowed value")) ∨
      (headerOf (q ++ data) ≠ .overlong ∧
        Continues readBufferSize q data reader view total) := by
  cases h.stored with
  | whole hstorage hsize hmemory _ =>
      exact continues_of_whole h hdata hroom hstorage hsize hmemory
  | large hlen rlen hheader hexceeds hsize hmemory =>
      exact Or.inr (continues_of_large h hdata hroom hheader hexceeds hsize hmemory)

/-! ## The handler of the read operation -/

/-- Whether the handler runs because of an error of the socket. -/
def HandlesError (x : ReadStep) : Prop :=
  ∃ reader ec total, x.before = some ⟨reader, .completed (some ec) total⟩

/-- A frame lies inside of the buffer. -/
theorem FrameRead.end_le {hlen rlen : Nat} (h : FrameRead readBufferSize q reader hlen rlen) :
    hlen + rlen ≤ reader.buffer.elements.length := by
  rw [HeapVector.length_elements, h.size_eq]
  exact h.fits

/-- A frame whose decoding is caught is processed or closes the connection. -/
theorem decodePacket_of_caught (readBufferSize : Nat) {frame : Frame}
    (hframe : reader.frame = some frame)
    (hcaught : Caught (decode reader.buffer.elements frame)) :
    (∃ packet s, decodePacket readBufferSize reader = .ok (.processed packet, s) ∧
        s.phase = .idle ∧ s.reader.frame = none ∧ s.reader.buffer.size = readBufferSize) ∨
      ∃ message s, decodePacket readBufferSize reader =
          .ok (.closeRequested message .protocolViolation, s) ∧ s.phase = .closed := by
  unfold decodePacket
  simp only [hframe]
  cases hdecode : decode reader.buffer.elements frame with
  | ok packet =>
      refine Or.inl ⟨packet, _, rfl, rfl, rfl, ?_⟩
      exact HeapVector.size_resize _ _ _
  | error failure =>
      rw [hdecode] at hcaught
      cases failure with
      | malformedMqttPacket what => exact Or.inr ⟨_, _, rfl, rfl⟩
      | assertion => exact absurd hcaught not_caught_assertion
      | invalidArgument what => exact absurd hcaught (not_caught_invalidArgument what)
      | systemError => exact absurd hcaught not_caught_systemError
      | undefinedBehaviour => exact absurd hcaught not_caught_undefinedBehaviour

/-- Any other failure of the decoder leaves the handler. -/
theorem decodePacket_of_not_caught (readBufferSize : Nat) {frame : Frame}
    (hframe : reader.frame = some frame)
    (hcaught : ¬ Caught (decode reader.buffer.elements frame)) :
    ∃ failure, decodePacket readBufferSize reader = .error failure := by
  unfold decodePacket
  simp only [hframe]
  cases hdecode : decode reader.buffer.elements frame with
  | ok packet =>
      rw [hdecode] at hcaught
      exact absurd (caught_ok _) hcaught
  | error failure =>
      rw [hdecode] at hcaught
      cases failure with
      | malformedMqttPacket what => exact absurd (caught_malformed what) hcaught
      | assertion => exact ⟨_, rfl⟩
      | invalidArgument what => exact ⟨_, rfl⟩
      | systemError => exact ⟨_, rfl⟩
      | undefinedBehaviour => exact ⟨_, rfl⟩

/-- Without a frame the assertion of the handler fails. -/
theorem decodePacket_of_no_frame (hframe : reader.frame = none) :
    decodePacket readBufferSize reader = .error .assertion := by
  unfold decodePacket
  rw [hframe]

/-- A handled frame leaves the read path ready for the next one, or closed. -/
theorem reads_of_decodePacket {o : ReadOutput} {s : ReadPath}
    (hstep : decodePacket readBufferSize reader = .ok (o, s)) :
    Reads readBufferSize q s := by
  cases hframe : reader.frame with
  | none =>
      rw [decodePacket_of_no_frame hframe] at hstep
      cases hstep
  | some frame =>
      by_cases hcaught : Caught (decode reader.buffer.elements frame)
      · rcases decodePacket_of_caught readBufferSize hframe hcaught with
          ⟨packet, s', hs', hphase, hnone, hsize⟩ | ⟨message, s', hs', hphase⟩
        · rw [hs'] at hstep
          cases hstep
          unfold Reads
          rw [hphase]
          exact ⟨hnone, hsize⟩
        · rw [hs'] at hstep
          cases hstep
          unfold Reads
          rw [hphase]
          trivial
      · rcases decodePacket_of_not_caught readBufferSize hframe hcaught with
          ⟨failure, hfailure⟩
        rw [hfailure] at hstep
        cases hstep

/-! ## Runs -/

/-- A step that does not fail keeps the state of the read path in agreement with the
bytes read. -/
theorem reads_step {s s' : ReadPath} {e : ReadEvent} {o : ReadOutput}
    (h : Reads readBufferSize q s)
    (hstep : s.step readBufferSize e = some (.ok (o, s'))) :
    Reads readBufferSize (bytesAfter q e) s' := by
  obtain ⟨reader, phase⟩ := s
  cases e with
  | readFrame =>
      cases phase with
      | idle =>
          rcases readFrame_spec h.1 h.2 with ⟨room, hcall, hreading⟩
          simp only [ReadPath.step, hcall, Option.some.injEq] at hstep
          cases hstep
          exact hreading
      | reading => cases hstep
      | completed => cases hstep
      | closed => cases hstep
  | received data =>
      cases phase with
      | reading view total room =>
          simp only [ReadPath.step] at hstep
          split at hstep
          · rename_i hallowed
            rcases readSome_spec h hallowed.1 hallowed.2 with
              ⟨-, herror⟩ | ⟨-, o', s'', hok, -, hreads⟩
            · rw [herror] at hstep
              cases hstep
            · rw [hok] at hstep
              cases hstep
              exact hreads
          · cases hstep
      | idle => cases hstep
      | completed => cases hstep
      | closed => cases hstep
  | failed ec =>
      cases phase with
      | reading view total room =>
          have hcall := FrameReader.call_of_error (Reading.total_le h)
          simp only [ReadPath.step, readError, hcall, bind, Except.bind,
            Option.some.injEq] at hstep
          cases hstep
          trivial
      | idle => cases hstep
      | completed => cases hstep
      | closed => cases hstep
  | onFrameRead =>
      cases phase with
      | completed ec total =>
          simp only [ReadPath.step, Option.some.injEq] at hstep
          cases ec with
          | none => exact reads_of_decodePacket hstep
          | some ec =>
              cases ec with
              | operationAborted =>
                  cases hstep
                  trivial
              | other message =>
                  cases hstep
                  trivial
      | idle => cases hstep
      | reading => cases hstep
      | closed => cases hstep

/-- After every run the state of the read path agrees with the bytes that have been
read since the last frame began. -/
theorem reads_of_run {steps : List ReadStep} {u : Option ReadPath}
    (hrun : (readPath readBufferSize).Run (some (.initial readBufferSize)) steps u) :
    ∀ s, u = some s → Reads readBufferSize (bytesRead steps) s := by
  apply hrun.snoc_induction (motive := fun steps u =>
    ∀ s, u = some s → Reads readBufferSize (bytesRead steps) s)
  · intro s hs
    cases hs
    exact ⟨rfl, List.length_replicate⟩
  · intro pre t e o u hpre hstep ih s hs
    cases t with
    | none => cases hstep
    | some t =>
        rcases Machine.ofFallible_step_some hstep with
          ⟨failure, -, -, rfl⟩ | ⟨o', t', hok, -, rfl⟩
        · cases hs
        · cases hs
          rw [bytesRead_append_singleton]
          exact reads_step (ih t rfl) hok

/-- Every step of a run starts in a state that agrees with the bytes read before. -/
theorem reads_before {steps pre post : List ReadStep} {u : Option ReadPath} {x : ReadStep}
    (hrun : (readPath readBufferSize).Run (some (.initial readBufferSize)) steps u)
    (hsplit : steps = pre ++ x :: post) :
    ∃ s result, x.before = some s ∧ Reads readBufferSize (bytesRead pre) s ∧
      s.step readBufferSize x.event = some result ∧ x.output = result.map Prod.fst := by
  rcases hrun.split hsplit with ⟨hpre, hstep, -⟩
  cases hbefore : x.before with
  | none =>
      rw [hbefore] at hstep
      cases hstep
  | some s =>
      rw [hbefore] at hstep hpre
      rcases Machine.ofFallible_output hstep with ⟨result, hresult, houtput⟩
      exact ⟨s, result, rfl, reads_of_run hpre s rfl, hresult, houtput⟩

end Connection
end WallyIo
