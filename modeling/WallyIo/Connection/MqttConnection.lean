import WallyIo.Codec.PacketDecoder
import WallyIo.Dispatch.Common
import WallyIo.Library.Timer

/-!
# Client connections

A connection answers each event by a change of its state and by a list of actions,
which are carried out in order: calls on the dispatcher, writes, stopping and reading
the next frame.  What the dispatcher does is not part of this module; it may send
packets through the connection, or stop it, before the next action is carried out.

Main results:

- Theorem {lit}`handle_accepts`: an accepted CONNECT makes the client known and is handed
  over to the dispatcher.
- Theorem {lit}`handle_undefinedBehaviour_iff`: when the client identifier is dereferenced
  while there is none.
-/

namespace WallyIo
namespace Connection

open Protocol
open Library
open Codec
open Dispatch

/-! ## State and actions -/

/-- The read operation of a connection. -/
inductive ReadState
  | idle
  /-- The operation is under way. -/
  | pending
  /-- A frame has been read, and the handler is queued. -/
  | queued
deriving DecidableEq, Repr

/-- The handler of a write operation. -/
inductive WriteHandler
  /-- That of {lit}`write_packet`. -/
  | keeps
  /-- That of {lit}`write_packet_and_close_connection`. -/
  | closes (reason : DisconnectReason)
deriving DecidableEq, Repr

/-- The state of a connection. -/
structure MqttConnection where
  clientId : Option Bytes
  isOpen : Bool
  keepAlive : Option UInt16
  closeOnConnectionTimeout : Timer
  closeOnKeepAliveTimeout : Timer
  read : ReadState
  writes : List WriteHandler
deriving DecidableEq, Repr

/-- What a connection does in answer to an event. -/
inductive Action
  /-- {lit}`dispatcher_.handle_packet_received` is called. -/
  | handlePacketReceived (container : PacketContainer)
  /-- {lit}`dispatcher_.client_disconnected_ungracefully` is called. -/
  | clientDisconnectedUngracefully (clientId : Bytes) (reason : DisconnectReason)
  | writePacket (packet : MqttPacket)
  | writePacketAndCloseConnection (packet : MqttPacket) (reason : DisconnectReason)
  | stop
  | readFrame
deriving DecidableEq, Repr

/-- What happens to a connection. -/
inductive ConnectionEvent
  /-- The read operation has read a frame. -/
  | frameArrives
  /-- The handler of the read operation decodes a packet.  The flag is the answer of the
  authentication service, should it be asked. -/
  | received (packet : MqttPacket) (authenticated : Bool)
  /-- The handler of the read operation fails to decode a packet. -/
  | malformed
  /-- The read operation fails. -/
  | readFailed (ec : ErrorCode)
  /-- The handler of a write operation runs. -/
  | written (i : Nat) (ok : Bool)
  | connectionTimerElapses
  | connectionTimeout
  | connectionTimerAborted
  | keepAliveTimerElapses
  | keepAliveTimeout
  | keepAliveTimerAborted
deriving DecidableEq, Repr

/-- The container that an action hands over to the dispatcher. -/
def Action.container : Action → Option PacketContainer
  | .handlePacketReceived container => some container
  | _ => none

/-- The containers that a list of actions hands over to the dispatcher. -/
def containers (actions : List Action) : List PacketContainer :=
  actions.filterMap Action.container

namespace MqttConnection

/-- A connection after {lit}`start`. -/
def started : MqttConnection where
  clientId := none
  isOpen := true
  keepAlive := none
  closeOnConnectionTimeout := Timer.idle.restart
  closeOnKeepAliveTimeout := Timer.idle
  read := .pending
  writes := []

variable (c : MqttConnection)

/-! ## What happens at once -/

/-- Close the socket and cancel the timers. -/
def doStop : MqttConnection :=
  { c with
    isOpen := false
    closeOnConnectionTimeout := c.closeOnConnectionTimeout.cancel
    closeOnKeepAliveTimeout := c.closeOnKeepAliveTimeout.cancel }

/-- Start a write operation, unless the socket is closed. -/
def write (handler : WriteHandler) : MqttConnection :=
  if c.isOpen then { c with writes := c.writes ++ [handler] } else c

/-- Start a read operation, unless the socket is closed. -/
def readFrame : MqttConnection :=
  if c.isOpen then { c with read := .pending } else c

/-- Wait until the client has been silent for too long. -/
def startKeepAlive : MqttConnection :=
  match c.keepAlive with
  | some _ => { c with closeOnKeepAliveTimeout := c.closeOnKeepAliveTimeout.restart }
  | none => c

/-- A call of the dispatch layer. -/
def applyCall : SenderCall → MqttConnection
  | .send _ => c.write .keeps
  | .stop _ => c.doStop

/-- Carry out an action.  Those of the dispatcher's calls that concern this connection
are carried out while the dispatcher is at work. -/
def perform (calls : List SenderCall) (c : MqttConnection) : Action → MqttConnection
  | .handlePacketReceived _ => calls.foldl applyCall c
  | .clientDisconnectedUngracefully _ _ => calls.foldl applyCall c
  | .writePacket _ => c.write .keeps
  | .writePacketAndCloseConnection _ reason => c.write (.closes reason)
  | .stop => c.doStop
  | .readFrame => c.readFrame

/-- A connection keeps itself alive as long as it is managed or one of its own handlers has not
run. -/
def alive : Bool :=
  c.isOpen || c.read ≠ .idle || !c.writes.isEmpty ||
    c.closeOnConnectionTimeout ≠ .idle || c.closeOnKeepAliveTimeout ≠ .idle

/-! ## Processing packets -/

/-- Close the connection.  Without a client identifier there is nobody to disconnect. -/
def connectionCloseRequested (reason : DisconnectReason) : List Action :=
  match c.clientId with
  | some clientId =>
      match reason with
      | .networkOrServerFailure | .protocolViolation | .keepAliveTimeoutExpired =>
          [.clientDisconnectedUngracefully clientId reason, .stop]
      | .clientDisconnect | .authenticationFailed | .notADisconnect =>
          [.handlePacketReceived ⟨clientId, .disconnect, reason⟩, .stop]
  | none => [.stop]

/-- The connection after its CONNECT has been accepted. -/
def connected (connect : Connect) : MqttConnection :=
  let accepted : MqttConnection :=
    { c with
      closeOnConnectionTimeout := c.closeOnConnectionTimeout.cancel
      clientId := some connect.clientId }
  if 0 < connect.keepAliveSecs then
    { accepted with keepAlive := some connect.keepAliveSecs }.startKeepAlive
  else accepted

/-- Hand a CONNECT on to the dispatcher. -/
def dispatchConnectPacket (connect : Connect) : List Action :=
  [.handlePacketReceived ⟨connect.clientId, .connect connect, .clientDisconnect⟩,
    .writePacket (.connack ⟨false, .connectionAccepted⟩)]

/-- Process a CONNECT.  The address of the client, which the authentication service is
asked about, is not available once the socket is closed. -/
def processConnectPacket (connect : Connect) (authenticated : Bool) :
    Except Fault (MqttConnection × List Action) :=
  match c.clientId with
  | some _ => .ok (c, c.connectionCloseRequested .protocolViolation)
  | none =>
      if !c.isOpen then .error .systemError
      else if !authenticated then
        .ok (c, [.writePacketAndCloseConnection (.connack ⟨false, .badUsernameOrPassword⟩)
          .authenticationFailed])
      else .ok (c.connected connect, dispatchConnectPacket connect)

/-- Hand a DISCONNECT on to the dispatcher.  The client identifier is dereferenced. -/
def dispatchDisconnectPacket : Except Fault (List Action) :=
  match c.clientId with
  | some clientId =>
      .ok [.handlePacketReceived ⟨clientId, .disconnect, .clientDisconnect⟩, .stop]
  | none => .error .undefinedBehaviour

/-- Hand another packet on to the dispatcher.  The client identifier is dereferenced. -/
def dispatchPacket (packet : MqttPacket) : Except Fault (List Action) :=
  match c.clientId with
  | some clientId => .ok [.handlePacketReceived ⟨clientId, packet, .notADisconnect⟩]
  | none => .error .undefinedBehaviour

/-- Process a packet. -/
def processDecodedPacket (packet : MqttPacket) (authenticated : Bool) :
    Except Fault (MqttConnection × List Action) :=
  match packet with
  | .connect connect => do
      let (c, actions) ← c.processConnectPacket connect authenticated
      .ok (c, actions ++ [.readFrame])
  | .pingreq => .ok (c, [.writePacket .pingresp, .readFrame])
  | .disconnect => do
      let actions ← c.dispatchDisconnectPacket
      .ok (c, actions)
  | .subscribe _ | .unsubscribe _ | .publish _ | .publishAck _ => do
      let actions ← c.dispatchPacket packet
      .ok (c, actions ++ [.readFrame])
  | .connack _ | .pingresp | .suback _ | .unsuback _ => .error .assertion

/-- The connection when the handler of its read operation begins. -/
def onFrameRead : MqttConnection :=
  { c with read := .idle, closeOnKeepAliveTimeout := c.closeOnKeepAliveTimeout.cancel }

/-- The handler of a write operation. -/
def onWritten (handler : WriteHandler) (ok : Bool) : List Action :=
  match handler with
  | .keeps => if ok then [] else c.connectionCloseRequested .networkOrServerFailure
  | .closes reason => c.connectionCloseRequested reason

/-- How a connection answers an event. -/
def handle : ConnectionEvent → Option (Except Fault (MqttConnection × List Action))
  | .frameArrives =>
      if c.isOpen ∧ c.read = .pending then some (.ok ({ c with read := .queued }, [])) else none
  | .received packet authenticated =>
      if c.read = .queued ∧ supported packet.type = true then
        some (c.onFrameRead.processDecodedPacket packet authenticated)
      else none
  | .malformed =>
      if c.read = .queued then
        some (.ok (c.onFrameRead, c.onFrameRead.connectionCloseRequested .protocolViolation))
      else none
  | .readFailed ec =>
      if c.read = .pending then
        match ec with
        | .operationAborted => if c.isOpen then none else some (.ok (c.onFrameRead, []))
        | .other _ =>
            some (.ok (c.onFrameRead,
              c.onFrameRead.connectionCloseRequested .networkOrServerFailure))
      else none
  | .written i ok =>
      match c.writes[i]? with
      | some handler =>
          let c := { c with writes := c.writes.eraseIdx i }
          some (.ok (c, c.onWritten handler ok))
      | none => none
  | .connectionTimerElapses =>
      c.closeOnConnectionTimeout.expire.map fun timer =>
        .ok ({ c with closeOnConnectionTimeout := timer }, [])
  | .connectionTimeout =>
      c.closeOnConnectionTimeout.takeExpired.map fun timer =>
        .ok ({ c with closeOnConnectionTimeout := timer },
          c.connectionCloseRequested .protocolViolation)
  | .connectionTimerAborted =>
      c.closeOnConnectionTimeout.takeAborted.map fun timer =>
        .ok ({ c with closeOnConnectionTimeout := timer }, [])
  | .keepAliveTimerElapses =>
      c.closeOnKeepAliveTimeout.expire.map fun timer =>
        .ok ({ c with closeOnKeepAliveTimeout := timer }, [])
  | .keepAliveTimeout =>
      c.closeOnKeepAliveTimeout.takeExpired.map fun timer =>
        .ok ({ c with closeOnKeepAliveTimeout := timer },
          c.connectionCloseRequested .keepAliveTimeoutExpired)
  | .keepAliveTimerAborted =>
      c.closeOnKeepAliveTimeout.takeAborted.map fun timer =>
        let c := { c with closeOnKeepAliveTimeout := timer }
        .ok (if c.isOpen then c.startKeepAlive else c, [])

end MqttConnection

/-! ## What the actions change -/

namespace MqttConnection

variable {c : MqttConnection}

@[simp]
theorem clientId_write (handler : WriteHandler) : (c.write handler).clientId = c.clientId := by
  unfold write
  split <;> rfl

@[simp]
theorem isOpen_write (handler : WriteHandler) : (c.write handler).isOpen = c.isOpen := by
  unfold write
  split <;> rfl

@[simp]
theorem clientId_readFrame : c.readFrame.clientId = c.clientId := by
  unfold readFrame
  split <;> rfl

@[simp]
theorem isOpen_readFrame : c.readFrame.isOpen = c.isOpen := by
  unfold readFrame
  split <;> rfl

@[simp]
theorem clientId_doStop : c.doStop.clientId = c.clientId := rfl

@[simp]
theorem isOpen_doStop : c.doStop.isOpen = false := rfl

@[simp]
theorem clientId_startKeepAlive : c.startKeepAlive.clientId = c.clientId := by
  unfold startKeepAlive
  split <;> rfl

@[simp]
theorem isOpen_startKeepAlive : c.startKeepAlive.isOpen = c.isOpen := by
  unfold startKeepAlive
  split <;> rfl

@[simp]
theorem clientId_onFrameRead : c.onFrameRead.clientId = c.clientId := rfl

@[simp]
theorem isOpen_onFrameRead : c.onFrameRead.isOpen = c.isOpen := rfl

@[simp]
theorem clientId_connected (connect : Connect) :
    (c.connected connect).clientId = some connect.clientId := by
  unfold connected
  split <;> simp

@[simp]
theorem isOpen_connected (connect : Connect) :
    (c.connected connect).isOpen = c.isOpen := by
  unfold connected
  split <;> simp

@[simp]
theorem clientId_applyCall (call : SenderCall) : (c.applyCall call).clientId = c.clientId := by
  cases call <;> simp [applyCall]

/-- The dispatch layer does not touch the client identifier. -/
@[simp]
theorem clientId_foldl_applyCall (calls : List SenderCall) :
    (calls.foldl applyCall c).clientId = c.clientId := by
  induction calls generalizing c with
  | nil => rfl
  | cons call calls ih => rw [List.foldl_cons, ih, clientId_applyCall]

@[simp]
theorem clientId_perform (calls : List SenderCall) (action : Action) :
    (perform calls c action).clientId = c.clientId := by
  cases action <;> simp [perform]

/-- No action touches the client identifier. -/
@[simp]
theorem clientId_foldl_perform (calls : List SenderCall) (actions : List Action) :
    (actions.foldl (perform calls) c).clientId = c.clientId := by
  induction actions generalizing c with
  | nil => rfl
  | cons action actions ih => rw [List.foldl_cons, ih, clientId_perform]

/-! ## What the events change -/

/-- Closing a connection hands over a DISCONNECT at most, and only if there is a client
identifier. -/
theorem containers_connectionCloseRequested (reason : DisconnectReason) :
    ∀ container ∈ containers (c.connectionCloseRequested reason),
      c.clientId.isSome = true ∧ container.isConnect = false := by
  intro container hmem
  unfold connectionCloseRequested at hmem
  cases hclient : c.clientId with
  | none => simp [hclient, containers, Action.container] at hmem
  | some clientId =>
      rw [hclient] at hmem
      cases reason <;>
        simp [containers, Action.container] at hmem <;>
        simp [hmem, PacketContainer.isConnect, MqttPacket.type]

/-- What a list of actions may hand over to the dispatcher on behalf of a connection that
has not just been accepted. -/
def HandsOver (c : MqttConnection) (actions : List Action) : Prop :=
  ∀ container ∈ containers actions, c.clientId.isSome = true ∧ container.isConnect = false

/-- The event is a CONNECT that the authentication service accepts. -/
def Accepts (c : MqttConnection) (event : ConnectionEvent) : Prop :=
  ∃ connect, event = .received (.connect connect) true ∧ c.clientId = none ∧ c.isOpen = true

/-- An accepted CONNECT is handed over. -/
theorem handle_accepts {connect : Connect} {c' : MqttConnection} {actions : List Action}
    (hclient : c.clientId = none) (hopen : c.isOpen = true)
    (h : c.handle (.received (.connect connect) true) = some (.ok (c', actions))) :
    c' = c.onFrameRead.connected connect ∧
      actions = dispatchConnectPacket connect ++ [.readFrame] := by
  simp only [handle] at h
  split at h
  · simp only [processDecodedPacket, processConnectPacket, clientId_onFrameRead, hclient,
      isOpen_onFrameRead, hopen, Bool.not_true, Bool.false_eq_true, if_false, bind, Except.bind,
      Option.some.injEq, Except.ok.injEq, Prod.mk.injEq] at h
    exact ⟨h.1.symm, h.2.symm⟩
  · cases h

/-- Without containers there is nothing to hand over. -/
theorem handsOver_of_nil {actions : List Action} (h : containers actions = []) :
    c.HandsOver actions := by
  intro container hmem
  rw [h] at hmem
  cases hmem

/-- Only processing a packet can fail. -/
theorem handle_error {event : ConnectionEvent} {failure : Fault}
    (h : c.handle event = some (.error failure)) :
    ∃ packet authenticated, event = .received packet authenticated ∧ c.read = .queued ∧
      supported packet.type = true ∧
        c.onFrameRead.processDecodedPacket packet authenticated = .error failure := by
  cases event with
  | received packet authenticated =>
      simp only [handle] at h
      split at h
      · rename_i hread
        simp only [Option.some.injEq] at h
        exact ⟨packet, authenticated, rfl, hread.1, hread.2, h⟩
      · cases h
  | frameArrives | malformed =>
      simp only [handle] at h
      split at h <;> cases h
  | readFailed ec =>
      simp only [handle] at h
      split at h
      · cases ec with
        | operationAborted =>
            simp only at h
            split at h <;> cases h
        | other message => cases h
      · cases h
  | written i ok =>
      simp only [handle] at h
      split at h <;> cases h
  | connectionTimerElapses | connectionTimeout | connectionTimerAborted | keepAliveTimerElapses
  | keepAliveTimeout | keepAliveTimerAborted =>
      simp only [handle, Option.map_eq_some_iff] at h
      rcases h with ⟨timer, -, h⟩
      cases h

/-- Without a client identifier every packet but CONNECT and PINGREQ dereferences it. -/
theorem processDecodedPacket_of_none {packet : MqttPacket} {authenticated : Bool}
    (hclient : c.clientId = none) (hsupported : supported packet.type = true)
    (hconnect : packet.type ≠ .connect) (hpingreq : packet.type ≠ .pingreq) :
    c.processDecodedPacket packet authenticated = .error .undefinedBehaviour := by
  cases packet with
  | connect => exact absurd rfl hconnect
  | pingreq => exact absurd rfl hpingreq
  | disconnect =>
      simp [processDecodedPacket, dispatchDisconnectPacket, hclient, bind, Except.bind]
  | subscribe | unsubscribe | publish | publishAck =>
      simp [processDecodedPacket, dispatchPacket, hclient, bind, Except.bind]
  | connack | pingresp | suback | unsuback => cases hsupported

/-- With a client identifier no packet that can be received makes processing fail. -/
theorem processDecodedPacket_of_some (c : MqttConnection) {packet : MqttPacket}
    (authenticated : Bool) {clientId : Bytes} (hclient : c.clientId = some clientId)
    (hsupported : supported packet.type = true) :
    ∃ actions, c.processDecodedPacket packet authenticated = .ok (c, actions) := by
  cases packet with
  | connect =>
      simp [processDecodedPacket, processConnectPacket, hclient, bind, Except.bind]
  | pingreq => exact ⟨_, rfl⟩
  | disconnect =>
      simp [processDecodedPacket, dispatchDisconnectPacket, hclient, bind, Except.bind]
  | subscribe | unsubscribe | publish | publishAck =>
      simp [processDecodedPacket, dispatchPacket, hclient, bind, Except.bind]
  | connack | pingresp | suback | unsuback => cases hsupported

/-- The client identifier is dereferenced while there is none exactly if a packet that
needs it comes before an accepted CONNECT. -/
theorem handle_undefinedBehaviour_iff {event : ConnectionEvent} :
    c.handle event = some (.error .undefinedBehaviour) ↔
      c.clientId = none ∧ c.read = .queued ∧ ∃ packet authenticated,
        event = .received packet authenticated ∧ supported packet.type = true ∧
          packet.type ≠ .connect ∧ packet.type ≠ .pingreq := by
  constructor
  · intro h
    rcases handle_error h with ⟨packet, authenticated, rfl, hread, hsupported, hprocess⟩
    cases hclient : c.clientId with
    | some clientId =>
        rcases c.onFrameRead.processDecodedPacket_of_some authenticated hclient hsupported with
          ⟨actions, hok⟩
        rw [hok] at hprocess
        cases hprocess
    | none =>
        refine ⟨rfl, hread, packet, authenticated, rfl, hsupported, ?_, ?_⟩
        · intro hconnect
          cases packet with
          | connect connect =>
              cases hopen : c.isOpen <;> cases authenticated <;>
                simp [processDecodedPacket, processConnectPacket, hclient, hopen, bind,
                  Except.bind] at hprocess
          | publishAck ack => cases ack <;> cases hconnect
          | connack | publish | subscribe | suback | unsubscribe | unsuback | pingreq | pingresp
          | disconnect => cases hconnect
        · intro hpingreq
          cases packet with
          | pingreq => cases hprocess
          | publishAck ack => cases ack <;> cases hpingreq
          | connect | connack | publish | subscribe | suback | unsubscribe | unsuback | pingresp
          | disconnect => cases hpingreq
  · rintro ⟨hclient, hread, packet, authenticated, rfl, hsupported, hconnect, hpingreq⟩
    have hnone : c.onFrameRead.clientId = none := hclient
    simp only [handle, hread, hsupported, and_self, if_true]
    rw [processDecodedPacket_of_none hnone hsupported hconnect hpingreq]

end MqttConnection

end Connection
end WallyIo
