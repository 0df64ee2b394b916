import WallyIo.Codec.Encoder
import WallyIo.Connection.MqttConnection
import WallyIo.Library.Machine
import Mathlib.Data.List.InsertIdx

/-!
# The write path of a connection

Every packet is encoded into the one write buffer of the connection.  The write
operation remembers block and size of the buffer and hands the bytes that stand there
over to the socket, a part at a time.  A further packet may be encoded before it is
done.

Main results:

- Theorem {lit}`Streams.step`: what is received and what is left to send, after one step.
- Theorem {lit}`streamsPackets`: the peer receives the encodings of the packets, one after
  another, if no packet is encoded while bytes of an earlier one have not been sent.
- Theorem {lit}`Represents.written`: the write operations of a connection are those of
  its write path.
-/

namespace WallyIo
namespace Connection

open Protocol
open Library
open Codec
open Dispatch

/-! ## The model -/

/-- A write operation: block and size of the buffer, and the number of bytes that the
socket has taken. -/
structure WriteOperation where
  view : View
  transferred : Nat
  failed : Bool
  handler : WriteHandler
deriving DecidableEq

/-- The number of bytes that have not been sent. -/
def WriteOperation.unsent (op : WriteOperation) : Nat := op.view.size - op.transferred

/-- The write buffer and the write operations whose handlers have not run. -/
structure WritePath where
  buffer : HeapVector UInt8
  isOpen : Bool
  operations : List WriteOperation

/-- What happens to the write path. -/
inductive WriteEvent
  /-- {lit}`write_packet` or {lit}`write_packet_and_close_connection` is called. -/
  | writePacket (packet : MqttPacket) (handler : WriteHandler)
  /-- The socket takes some bytes.  Those of a block that the buffer has left may be
  anything. -/
  | transferred (i n : Nat) (freed : Bytes)
  | failed (i : Nat)
  /-- The handler of a write operation runs. -/
  | written (i : Nat)
  /-- The connection is closed. -/
  | stop
deriving DecidableEq

namespace WritePath

/-- Encode a packet into the buffer and start to write it. -/
def writePacket (s : WritePath) (packet : MqttPacket) (handler : WriteHandler) :
    Except Fault (Bytes × WritePath) :=
  if s.isOpen then do
    let buffer := s.buffer.clear.resize (totalLengthOf packet) 0x00
    let it ← encode packet (.start (totalLengthOf packet))
    let buffer := buffer.write buffer.view 0 it.written
    .ok ([], ⟨buffer, true, s.operations ++ [⟨buffer.view, 0, false, handler⟩]⟩)
  else .ok ([], s)

/-- The socket takes bytes of a write operation. -/
def transfer (s : WritePath) (i n : Nat) (freed : Bytes) : Option (Bytes × WritePath) :=
  match s.operations[i]? with
  | some op =>
      if s.isOpen ∧ op.failed = false ∧ 0 < n ∧ n ≤ op.unsent ∧ freed.length = n then
        some ((s.buffer.read op.view op.transferred n).getD freed,
          { s with operations :=
              s.operations.set i { op with transferred := op.transferred + n } })
      else none
  | none => none

/-- The socket reports an error. -/
def fail (s : WritePath) (i : Nat) : Option WritePath :=
  match s.operations[i]? with
  | some op =>
      if 0 < op.unsent then
        some { s with operations := s.operations.set i { op with failed := true } }
      else none
  | none => none

/-- Whether a handler closes the connection. -/
def closesConnection (op : WriteOperation) : Bool :=
  op.failed || op.handler ≠ .keeps

/-- The handler of a write operation. -/
def onWritten (s : WritePath) (i : Nat) : Option WritePath :=
  match s.operations[i]? with
  | some op =>
      if op.failed = true ∨ op.unsent = 0 then
        some { s with
          isOpen := s.isOpen && !closesConnection op
          operations := s.operations.eraseIdx i }
      else none
  | none => none

/-- A step of the write path. -/
def step (s : WritePath) : WriteEvent → Option (Except Fault (Bytes × WritePath))
  | .writePacket packet handler => some (s.writePacket packet handler)
  | .transferred i n freed => (s.transfer i n freed).map .ok
  | .failed i => (s.fail i).map fun s => .ok ([], s)
  | .written i => (s.onWritten i).map fun s => .ok ([], s)
  | .stop => some (.ok ([], { s with isOpen := false }))

/-- The write path of a new connection. -/
def initial (writeBufferSize : Nat) : WritePath :=
  ⟨HeapVector.ofList (List.replicate writeBufferSize 0x00), true, []⟩

/-- The write operations that have bytes to send. -/
def unfinished (s : WritePath) : List WriteOperation :=
  s.operations.filter fun op => op.unsent ≠ 0

end WritePath

/-- The write path as a machine.  Its outputs are the bytes that the peer receives.  A
failure that is not caught ends it. -/
def writePath : Machine (Option WritePath) WriteEvent (Except Fault Bytes) :=
  Machine.ofFallible WritePath.step

/-- An executed step of the write path. -/
abbrev WriteStep := Step (Option WritePath) WriteEvent (Except Fault Bytes)

/-! ## The property -/

/-- The bytes that the peer receives in a step. -/
def receivedIn (x : WriteStep) : Bytes :=
  match x.output with
  | .ok bytes => bytes
  | .error _ => []

/-- The encoding of the packet that is passed in with an event. -/
def passedInWith : WriteEvent → Bytes
  | .writePacket packet _ =>
      match encoding packet with
      | .ok bytes => bytes
      | .error _ => []
  | .transferred _ _ _ => []
  | .failed _ => []
  | .written _ => []
  | .stop => []

/-- All bytes that the peer receives. -/
def received (steps : List WriteStep) : Bytes := steps.flatMap receivedIn

/-- The encodings of all packets that are passed in, in the order of the calls. -/
def passedIn (steps : List WriteStep) : Bytes := steps.flatMap fun x => passedInWith x.event

/-- The peer receives the encodings of the packets that are passed in, one after another:
never anything else, and all of them once nothing is left to be sent on an open
connection. -/
def StreamsPackets (steps : List WriteStep) (t : Option WritePath) : Prop :=
  received steps <+: passedIn steps ∧
    ∀ s, t = some s → s.isOpen = true → s.unfinished = [] → received steps = passedIn steps

/-- Whether a packet is passed in. -/
def WriteEvent.passesIn : WriteEvent → Bool
  | .writePacket _ _ => true
  | .transferred _ _ _ => false
  | .failed _ => false
  | .written _ => false
  | .stop => false

/-- A packet is passed in only when nothing is left to be sent. -/
def WaitsForEarlier (x : WriteStep) : Prop :=
  ∀ s ∈ x.before, x.event.passesIn = true → s.isOpen = true → s.unfinished = []

instance (x : WriteStep) : Decidable (WaitsForEarlier x) :=
  inferInstanceAs (Decidable (∀ s ∈ x.before, x.event.passesIn = true → s.isOpen = true →
    s.unfinished = []))

@[simp]
theorem received_append_singleton (steps : List WriteStep) (x : WriteStep) :
    received (steps ++ [x]) = received steps ++ receivedIn x := by
  simp [received]

@[simp]
theorem passedIn_append_singleton (steps : List WriteStep) (x : WriteStep) :
    passedIn (steps ++ [x]) = passedIn steps ++ passedInWith x.event := by
  simp [passedIn]

/-! ## Lists of which one element is selected -/

section Selected

variable {α : Type*} {p : α → Bool} {xs : List α} {x z : α} {i : Nat}

/-- An element and what stands around it. -/
theorem exists_split_of_getElem? (h : xs[i]? = some x) :
    ∃ pre post, xs = pre ++ x :: post ∧ i = pre.length := by
  rcases List.getElem?_eq_some_iff.mp h with ⟨hlt, rfl⟩
  refine ⟨xs.take i, xs.drop (i + 1), ?_, ?_⟩
  · rw [List.getElem_cons_drop, List.take_append_drop]
  · rw [List.length_take, Nat.min_eq_left (Nat.le_of_lt hlt)]

/-- Erasing an element that is not selected leaves the selected ones. -/
theorem filter_eraseIdx_of_not (h : xs[i]? = some x) (hx : p x = false) :
    (xs.eraseIdx i).filter p = xs.filter p := by
  rcases exists_split_of_getElem? h with ⟨pre, post, rfl, rfl⟩
  rw [List.eraseIdx_append_of_length_le (Nat.le_refl _), Nat.sub_self, List.eraseIdx_cons_zero,
    List.filter_append, List.filter_append, List.filter_cons_of_neg (by simp [hx])]

/-- If one element is selected, an update of it leaves no other one selected. -/
theorem filter_set_of_filter_eq (h : xs[i]? = some x) (hx : p x = true)
    (hone : xs.filter p = [z]) (y : α) : x = z ∧ (xs.set i y).filter p = [y].filter p := by
  rcases exists_split_of_getElem? h with ⟨pre, post, rfl, rfl⟩
  rw [List.filter_append, List.filter_cons_of_pos hx] at hone
  rcases List.append_eq_singleton_iff.mp hone with ⟨hpre, hpost⟩ | ⟨_, hpost⟩
  · rw [List.cons.injEq] at hpost
    refine ⟨hpost.1, ?_⟩
    rw [List.set_append_right _ _ (Nat.le_refl _), Nat.sub_self, List.set_cons_zero,
      List.filter_append, hpre, List.nil_append, List.filter_cons, hpost.2, List.filter_singleton]
    cases p y <;> rfl
  · cases hpost

/-- If no element is selected, none is found to be. -/
theorem not_of_filter_eq_nil (h : xs[i]? = some x) (hnil : xs.filter p = []) :
    p x = false := by
  have hmem : x ∈ xs := List.mem_of_getElem? h
  have hall := List.filter_eq_nil_iff.mp hnil x hmem
  simpa using hall

end Selected

/-! ## What is left to be sent -/

namespace WritePath

variable {s t : WritePath} {i n : Nat} {freed bytes : Bytes}

/-- The socket takes bytes of an operation that has some left, while it is open. -/
theorem transfer_eq_some (h : s.transfer i n freed = some (bytes, t)) :
    ∃ op, s.operations[i]? = some op ∧ s.isOpen = true ∧ 0 < n ∧ n ≤ op.unsent ∧
      bytes = (s.buffer.read op.view op.transferred n).getD freed ∧
      t = { s with operations :=
        s.operations.set i { op with transferred := op.transferred + n } } := by
  unfold transfer at h
  split at h
  · rename_i op hop
    split at h
    · rename_i hguard
      obtain ⟨hopen, -, hpos, hle, -⟩ := hguard
      cases h
      exact ⟨op, hop, hopen, hpos, hle, rfl, rfl⟩
    · cases h
  · cases h

/-- The socket fails while an operation has bytes left. -/
theorem fail_eq_some (h : s.fail i = some t) :
    ∃ op, s.operations[i]? = some op ∧ 0 < op.unsent ∧
      t = { s with operations := s.operations.set i { op with failed := true } } := by
  unfold fail at h
  split at h
  · rename_i op hop
    split at h
    · rename_i hpos
      cases h
      exact ⟨op, hop, hpos, rfl⟩
    · cases h
  · cases h

/-- The handler of an operation runs when it has failed or has nothing left to send. -/
theorem onWritten_eq_some (h : s.onWritten i = some t) :
    ∃ op, s.operations[i]? = some op ∧ (op.failed = true ∨ op.unsent = 0) ∧
      t = { s with
        isOpen := s.isOpen && !closesConnection op
        operations := s.operations.eraseIdx i } := by
  unfold onWritten at h
  split at h
  · rename_i op hop
    split at h
    · rename_i hguard
      cases h
      exact ⟨op, hop, hguard, rfl⟩
    · cases h
  · cases h

/-- The socket takes bytes only while it is open. -/
theorem isOpen_of_transfer (h : s.transfer i n freed = some (bytes, t)) : s.isOpen = true := by
  obtain ⟨op, -, hopen, -⟩ := transfer_eq_some h
  exact hopen

/-- An error does not close the socket by itself. -/
theorem isOpen_of_fail (h : s.fail i = some t) : t.isOpen = s.isOpen := by
  obtain ⟨op, -, -, rfl⟩ := fail_eq_some h
  rfl

/-- A handler does not open the socket. -/
theorem isOpen_of_onWritten (h : s.onWritten i = some t) (hopen : t.isOpen = true) :
    s.isOpen = true := by
  obtain ⟨op, -, -, rfl⟩ := onWritten_eq_some h
  simp only [Bool.and_eq_true] at hopen
  exact hopen.1

end WritePath

/-- The bytes that are left to be sent: none, or those of one write operation, which stand
in the buffer. -/
def Pending (s : WritePath) (rest : Bytes) : Prop :=
  (s.unfinished = [] ∧ rest = []) ∨
    ∃ op, s.unfinished = [op] ∧ op.view = s.buffer.view ∧
      rest = s.buffer.elements.drop op.transferred

namespace Pending

variable {s t : WritePath} {rest : Bytes} {i n : Nat}

/-- What one operation has left to send. -/
theorem of_operation (op : WriteOperation)
    (hops : s.unfinished = [op].filter fun op => op.unsent ≠ 0)
    (hview : op.view = s.buffer.view) :
    Pending s (s.buffer.elements.drop op.transferred) := by
  by_cases hdone : op.unsent = 0
  · refine Or.inl ⟨?_, ?_⟩
    · rw [hops]
      exact List.filter_cons_of_neg (by simp [hdone])
    · apply List.drop_of_length_le
      have hsize : op.view.size = s.buffer.size := by
        rw [hview]
        rfl
      rw [HeapVector.length_elements]
      unfold WriteOperation.unsent at hdone
      omega
  · refine Or.inr ⟨op, ?_, hview, rfl⟩
    rw [hops]
    exact List.filter_cons_of_pos (by simp [hdone])

/-- An operation that has bytes left is the only one, and stands in the buffer.  Where it is
changed, there is nothing left but what it has left then. -/
theorem of_busy {op : WriteOperation} (h : Pending s rest) (hop : s.operations[i]? = some op)
    (hbusy : 0 < op.unsent) (op' : WriteOperation) (hview' : op'.view = op.view) :
    op.view = s.buffer.view ∧ rest = s.buffer.elements.drop op.transferred ∧
      Pending { s with operations := s.operations.set i op' }
        (s.buffer.elements.drop op'.transferred) := by
  have hselected : decide (op.unsent ≠ 0) = true := by
    rw [decide_eq_true_eq]
    omega
  rcases h with ⟨hnone, -⟩ | ⟨busy, hone, hview, rfl⟩
  · rw [not_of_filter_eq_nil hop hnone] at hselected
    cases hselected
  · obtain ⟨rfl, hset⟩ := filter_set_of_filter_eq hop hselected hone op'
    exact ⟨hview, rfl, of_operation op' hset (hview'.trans hview)⟩

/-- The operation of which the socket takes bytes is the one that has some left. -/
theorem transfer {freed bytes : Bytes} (h : Pending s rest)
    (hstep : s.transfer i n freed = some (bytes, t)) :
    ∃ rest', rest = bytes ++ rest' ∧ Pending t rest' := by
  obtain ⟨op, hop, -, hpos, hle, rfl, rfl⟩ := WritePath.transfer_eq_some hstep
  obtain ⟨hview, rfl, hpending⟩ :=
    h.of_busy hop (by omega) { op with transferred := op.transferred + n } rfl
  have hsize : op.view.size = s.buffer.size := by
    rw [hview]
    rfl
  have hstorage : s.buffer.storage = op.view.storage := by
    rw [hview]
    rfl
  unfold WriteOperation.unsent at hle
  rw [HeapVector.read_view_of_size_le _ hstorage (by omega), Option.getD_some]
  refine ⟨s.buffer.elements.drop (op.transferred + n), ?_, hpending⟩
  rw [← List.drop_drop, List.take_append_drop]

/-- An error leaves bytes unsent. -/
theorem fail (h : Pending s rest) (hstep : s.fail i = some t) : Pending t rest := by
  obtain ⟨op, hop, hpos, rfl⟩ := WritePath.fail_eq_some hstep
  obtain ⟨-, rfl, hpending⟩ := h.of_busy hop hpos { op with failed := true } rfl
  exact hpending

/-- The handler of an operation runs when it has failed, which closes the connection, or
when it has nothing left to send. -/
theorem onWritten (h : Pending s rest) (hstep : s.onWritten i = some t)
    (hopen : t.isOpen = true) : Pending t rest := by
  obtain ⟨op, hop, hguard, rfl⟩ := WritePath.onWritten_eq_some hstep
  simp only [WritePath.closesConnection, Bool.and_eq_true, Bool.not_eq_true',
    Bool.or_eq_false_iff] at hopen
  have hdone : decide (op.unsent ≠ 0) = false := by
    rcases hguard with hfailed | hdone
    · rw [hopen.2.1] at hfailed
      cases hfailed
    · simp [hdone]
  have hsame : (s.operations.eraseIdx i).filter (fun op => op.unsent ≠ 0) =
      s.unfinished := filter_eraseIdx_of_not hop hdone
  rcases h with ⟨hnone, hrest⟩ | ⟨op', hone, hview, hrest⟩
  · exact Or.inl ⟨hsame.trans hnone, hrest⟩
  · exact Or.inr ⟨op', hsame.trans hone, hview, hrest⟩

end Pending

/-- What stands in the buffer after a packet has been encoded. -/
theorem elements_encoded (buffer : HeapVector UInt8) {n : Nat} (it : OutputIterator n) :
    let resized := buffer.clear.resize n 0x00
    (resized.write resized.view 0 it.written).elements =
      it.written ++ List.replicate it.room 0x00 := by
  have hfits := it.fits
  simp only
  rw [HeapVector.elements_write]
  · rw [HeapVector.elements_resize_clear, overwrite, List.take_zero, List.nil_append,
      List.drop_replicate, Nat.zero_add]
    rfl
  · rfl
  · rw [HeapVector.size_resize]
    omega

/-- A packet that is encoded while nothing is left to be sent is what is left then. -/
theorem Pending.writePacket {s t : WritePath} {packet : MqttPacket} {handler : WriteHandler}
    {bytes : Bytes} (hopen : s.isOpen = true) (hnone : s.unfinished = [])
    (hstep : s.writePacket packet handler = .ok (bytes, t)) :
    bytes = [] ∧ ∃ encoded, encoding packet = .ok encoded ∧ Pending t encoded := by
  unfold WritePath.writePacket at hstep
  rw [if_pos hopen] at hstep
  rcases bind_eq_ok_iff.mp hstep with ⟨it, hencode, hresult⟩
  cases hresult
  have helements := elements_encoded s.buffer it
  have hencoding : encoding packet = .ok (it.written ++ List.replicate it.room 0x00) := by
    rw [encoding, hencode]
    rfl
  refine ⟨rfl, _, hencoding, ?_⟩
  simp only at helements
  rw [← helements]
  apply of_operation ⟨_, 0, false, handler⟩
  · unfold WritePath.unfinished at hnone ⊢
    rw [List.filter_append, hnone, List.nil_append]
  · rfl

/-! ## Runs -/

/-- What is received and what is left make up what is passed in, as long as the connection
is open. -/
def Streams (steps : List WriteStep) (t : Option WritePath) : Prop :=
  ∃ rest, received steps ++ rest = passedIn steps ∧
    ∀ s, t = some s → s.isOpen = true → Pending s rest

/-- A step from a state in which nothing is received. -/
theorem Streams.of_nothing {steps : List WriteStep} {rest : Bytes} {x : WriteStep}
    {t : Option WritePath} (hrest : received steps ++ rest = passedIn steps)
    (hreceived : receivedIn x = [])
    (hpending : ∀ s, t = some s → s.isOpen = true → Pending s (rest ++ passedInWith x.event)) :
    Streams (steps ++ [x]) t := by
  refine ⟨rest ++ passedInWith x.event, ?_, hpending⟩
  rw [received_append_singleton, passedIn_append_singleton, hreceived, List.append_nil,
    ← hrest, List.append_assoc]

/-- A step preserves what is received and left. -/
theorem Streams.step {steps : List WriteStep} {s : WritePath} {e : WriteEvent}
    {o : Except Fault Bytes} {t : Option WritePath} (h : Streams steps (some s))
    (hstep : writePath.step (some s) e = some (o, t))
    (hwaits : WaitsForEarlier ⟨some s, e, o, t⟩) :
    Streams (steps ++ [⟨some s, e, o, t⟩]) t := by
  rcases h with ⟨rest, hrest, hpending⟩
  replace hpending := hpending s rfl
  rcases Machine.ofFallible_step_some hstep with ⟨failure, -, rfl, rfl⟩ | ⟨bytes, w, hw, rfl, rfl⟩
  · exact of_nothing hrest rfl (fun s hs => by cases hs)
  · cases e with
    | writePacket packet handler =>
        simp only [WritePath.step, Option.some.injEq] at hw
        cases hopen : s.isOpen with
        | false =>
            rw [WritePath.writePacket, hopen] at hw
            cases hw
            apply of_nothing hrest rfl
            intro s' hs hopen'
            cases hs
            rw [hopen] at hopen'
            cases hopen'
        | true =>
            have hnone := hwaits s rfl rfl hopen
            rcases Pending.writePacket hopen hnone hw with ⟨rfl, encoded, hencoded, hnext⟩
            have hnil : rest = [] := by
              rcases hpending hopen with ⟨-, hnil⟩ | ⟨op, hone, -⟩
              · exact hnil
              · rw [hnone] at hone
                cases hone
            apply of_nothing hrest rfl
            intro s' hs _
            cases hs
            simp only [passedInWith, hencoded, hnil, List.nil_append]
            exact hnext
    | transferred i n freed =>
        simp only [WritePath.step, Option.map_eq_some_iff] at hw
        rcases hw with ⟨⟨data, w'⟩, htransfer, hw⟩
        cases hw
        rcases (hpending (WritePath.isOpen_of_transfer htransfer)).transfer htransfer with
          ⟨rest', rfl, hnext⟩
        refine ⟨rest', ?_, ?_⟩
        · rw [received_append_singleton, passedIn_append_singleton, ← hrest]
          simp [receivedIn, passedInWith]
        · intro s' hs _
          cases hs
          exact hnext
    | failed i =>
        simp only [WritePath.step, Option.map_eq_some_iff] at hw
        rcases hw with ⟨w', hfail, hw⟩
        cases hw
        apply of_nothing hrest rfl
        intro s' hs hopen
        cases hs
        rw [WritePath.isOpen_of_fail hfail] at hopen
        simpa [passedInWith] using (hpending hopen).fail hfail
    | written i =>
        simp only [WritePath.step, Option.map_eq_some_iff] at hw
        rcases hw with ⟨w', hwritten, hw⟩
        cases hw
        apply of_nothing hrest rfl
        intro s' hs hopen
        cases hs
        have hpending' := hpending (WritePath.isOpen_of_onWritten hwritten hopen)
        simpa [passedInWith] using hpending'.onWritten hwritten hopen
    | stop =>
        simp only [WritePath.step, Option.some.injEq] at hw
        cases hw
        apply of_nothing hrest rfl
        intro s' hs hopen
        cases hs
        cases hopen

/-- The peer receives the encodings of the packets, one after another, in every run in
which no packet is passed in while bytes of an earlier one have not been sent. -/
theorem streamsPackets {writeBufferSize : Nat} {steps : List WriteStep}
    {t : Option WritePath}
    (h : writePath.Run (some (.initial writeBufferSize)) steps t)
    (hwaits : ∀ x ∈ steps, WaitsForEarlier x) : StreamsPackets steps t := by
  have hstreams : Streams steps t := by
    apply h.history_invariant WaitsForEarlier Streams
    · refine ⟨[], rfl, ?_⟩
      intro s hs _
      cases hs
      exact Or.inl ⟨rfl, rfl⟩
    · intro pre s e o u _ hpre hstep hcond
      cases s with
      | none => cases hstep
      | some s => exact hpre.step hstep hcond
    · exact hwaits
  rcases hstreams with ⟨rest, hrest, hpending⟩
  refine ⟨⟨rest, hrest⟩, ?_⟩
  intro s hs hopen hnone
  rcases hpending s hs hopen with ⟨-, rfl⟩ | ⟨op, hone, -⟩
  · rw [← hrest, List.append_nil]
  · rw [hnone] at hone
    cases hone

/-- The answer to a subscription of one topic. -/
def sampleSuback : MqttPacket := .suback ⟨1, [.maximumQos0]⟩

/-- A message that has been retained for that topic. -/
def samplePublish : MqttPacket := .publish (.create false .atMostOnce true [0x61] 0 [0x07])

/-- The SUBACK is sent in two parts before the message is passed in. -/
def sequentialRun : Option (List WriteStep × Option WritePath) :=
  writePath.exec (some (.initial 8))
    [.writePacket sampleSuback .keeps, .transferred 0 2 [0, 0], .transferred 0 3 [0, 0, 0],
      .writePacket samplePublish .keeps, .written 0, .transferred 0 6 [0, 0, 0, 0, 0, 0]]

theorem sequentialRun_isSome : sequentialRun.isSome = true := rfl

/-- The peer receives both packets. -/
theorem streamsPackets_sequentialRun : ∃ steps t,
    writePath.Run (some (.initial 8)) steps t ∧ StreamsPackets steps t ∧
      received steps = [0x90, 0x03, 0x00, 0x01, 0x00] ++
        [0x31, 0x04, 0x00, 0x01, 0x61, 0x07] := by
  have hrun := Machine.run_exec (Option.some_get sequentialRun_isSome).symm
  exact ⟨_, _, hrun, streamsPackets hrun (by decide), by decide⟩

/-- The message is passed in before the SUBACK has been sent. -/
def overlappingRun : Option (List WriteStep × Option WritePath) :=
  writePath.exec (some (.initial 8))
    [.writePacket sampleSuback .keeps, .writePacket samplePublish .keeps,
      .transferred 0 5 [0, 0, 0, 0, 0], .transferred 1 6 [0, 0, 0, 0, 0, 0]]

theorem overlappingRun_isSome : overlappingRun.isSome = true := rfl

/-- The peer receives the beginning of the message instead of the SUBACK. -/
theorem overwritten_by_next_packet : ∃ steps t,
    writePath.Run (some (.initial 8)) steps t ∧ ¬ StreamsPackets steps t ∧
      passedIn steps = [0x90, 0x03, 0x00, 0x01, 0x00] ++
        [0x31, 0x04, 0x00, 0x01, 0x61, 0x07] ∧
      received steps = [0x31, 0x04, 0x00, 0x01, 0x61] ++
        [0x31, 0x04, 0x00, 0x01, 0x61, 0x07] := by
  have hrun := Machine.run_exec (Option.some_get overlappingRun_isSome).symm
  refine ⟨_, _, hrun, ?_, by decide, by decide⟩
  rintro ⟨hstream, -⟩
  revert hstream
  decide

/-! ## The write operations of a connection -/

/-- A connection and its write path agree on the socket and on the handlers that have not
run. -/
def Represents (c : MqttConnection) (s : WritePath) : Prop :=
  c.isOpen = s.isOpen ∧ c.writes = s.operations.map WriteOperation.handler

variable {c : MqttConnection} {s t : WritePath}

/-- A packet that is passed in starts a write operation. -/
theorem Represents.writePacket {packet : MqttPacket} {handler : WriteHandler} {bytes : Bytes}
    (h : Represents c s) (hstep : s.writePacket packet handler = .ok (bytes, t)) :
    Represents (c.write handler) t := by
  rcases h with ⟨hsocket, hwrites⟩
  unfold WritePath.writePacket at hstep
  split at hstep
  · rename_i hopen
    rcases bind_eq_ok_iff.mp hstep with ⟨it, -, hresult⟩
    cases hresult
    have hcopen : c.isOpen = true := hsocket.trans hopen
    refine ⟨?_, ?_⟩
    · rw [MqttConnection.isOpen_write, hcopen]
    · rw [MqttConnection.write, if_pos hcopen]
      simp [hwrites]
  · rename_i hclosed
    cases hstep
    rw [MqttConnection.write, hsocket, if_neg hclosed]
    exact ⟨hsocket, hwrites⟩

/-- A connection that is asked to close is stopped. -/
theorem stop_mem_connectionCloseRequested (c : MqttConnection) (reason : DisconnectReason) :
    Action.stop ∈ c.connectionCloseRequested reason := by
  unfold MqttConnection.connectionCloseRequested
  cases c.clientId <;> cases reason <;> simp

/-- The handler of an operation stops the connection exactly if the write path says so. -/
theorem stop_mem_onWritten_iff (c : MqttConnection) (op : WriteOperation) :
    Action.stop ∈ c.onWritten op.handler !op.failed ↔
      WritePath.closesConnection op = true := by
  unfold MqttConnection.onWritten WritePath.closesConnection
  cases op.handler with
  | keeps =>
      cases op.failed with
      | true => simpa using stop_mem_connectionCloseRequested c .networkOrServerFailure
      | false => simp
  | closes reason => simpa using stop_mem_connectionCloseRequested c reason

/-- When a handler runs, its operation is dropped, and the connection is stopped if need
be. -/
theorem Represents.written {i : Nat} (h : Represents c s) (hstep : s.onWritten i = some t) :
    ∃ op c', s.operations[i]? = some op ∧
      c.handle (.written i !op.failed) = some (.ok (c', c'.onWritten op.handler !op.failed)) ∧
        Represents (if Action.stop ∈ c'.onWritten op.handler !op.failed then c'.doStop else c')
          t := by
  rcases h with ⟨hsocket, hwrites⟩
  obtain ⟨op, hop, -, rfl⟩ := WritePath.onWritten_eq_some hstep
  have hhandler : c.writes[i]? = some op.handler := by
    rw [hwrites, List.getElem?_map, hop]
    rfl
  have hrest : (c.writes.eraseIdx i) =
      (s.operations.eraseIdx i).map WriteOperation.handler := by
    rw [hwrites, List.eraseIdx_map]
  refine ⟨op, { c with writes := c.writes.eraseIdx i }, hop, ?_, ?_⟩
  · simp only [MqttConnection.handle, hhandler]
  · cases hcloses : WritePath.closesConnection op with
    | true =>
        rw [if_pos ((stop_mem_onWritten_iff _ op).mpr hcloses)]
        exact ⟨by simp, hrest⟩
    | false =>
        rw [if_neg (by rw [stop_mem_onWritten_iff, hcloses]; decide)]
        exact ⟨by simpa using hsocket, hrest⟩

end Connection
end WallyIo
