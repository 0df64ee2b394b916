import WallyIo.Protocol.Packet

/-!
# Calls on the client connection

The dispatch layer sees a client connection through a small interface: it sends
packets and stops the connection.  A publication answers each event by such calls
and by its next state.

Main results:

- Theorem {lit}`stops_append`: a list of calls stops the connection if one of its
  parts does.
-/

namespace WallyIo
namespace Dispatch

open Protocol

/-- Why a client disconnected. -/
inductive DisconnectReason
  | notADisconnect
  | clientDisconnect
  | authenticationFailed
  | protocolViolation
  | keepAliveTimeoutExpired
  | networkOrServerFailure
deriving DecidableEq, Repr

/-- A packet on its way to the dispatcher, with the client that it comes from. -/
structure PacketContainer where
  clientId : Bytes
  packet : MqttPacket
  disconnectReason : DisconnectReason
deriving DecidableEq, Repr

/-- Whether the packet is a CONNECT. -/
def PacketContainer.isConnect (container : PacketContainer) : Bool :=
  container.packet.type == .connect

/-- An error of a read or write operation. -/
inductive ErrorCode
  | operationAborted
  | other (message : String)
deriving DecidableEq, Repr

/-- A call on the {lit}`mqtt_packet_sender` of a client. -/
inductive SenderCall
  | send (packet : MqttPacket)
  | stop (message : String)
deriving DecidableEq, Repr

namespace SenderCall

/-- The packet that a call sends. -/
def sent : SenderCall → Option MqttPacket
  | .send packet => some packet
  | .stop _ => none

/-- Whether a call stops the connection. -/
def isStop : SenderCall → Bool
  | .send _ => false
  | .stop _ => true

end SenderCall

/-- The packets sent by a list of calls. -/
def sentPackets (calls : List SenderCall) : List MqttPacket :=
  calls.filterMap SenderCall.sent

/-- Whether one of the calls stops the connection. -/
def stops (calls : List SenderCall) : Bool := calls.any SenderCall.isStop

@[simp]
theorem sentPackets_nil : sentPackets [] = [] := rfl

@[simp]
theorem sentPackets_send (packet : MqttPacket) (calls : List SenderCall) :
    sentPackets (.send packet :: calls) = packet :: sentPackets calls := rfl

@[simp]
theorem sentPackets_stop (message : String) (calls : List SenderCall) :
    sentPackets (.stop message :: calls) = sentPackets calls := rfl

@[simp]
theorem sentPackets_append (xs ys : List SenderCall) :
    sentPackets (xs ++ ys) = sentPackets xs ++ sentPackets ys := by
  simp [sentPackets]

@[simp]
theorem stops_nil : stops [] = false := rfl

@[simp]
theorem stops_send (packet : MqttPacket) (calls : List SenderCall) :
    stops (.send packet :: calls) = stops calls := rfl

@[simp]
theorem stops_stop (message : String) (calls : List SenderCall) :
    stops (.stop message :: calls) = true := rfl

/-- A list of calls stops the connection if one of its parts does. -/
@[simp]
theorem stops_append (xs ys : List SenderCall) :
    stops (xs ++ ys) = (stops xs || stops ys) := by
  simp [stops]

/-- Calls that send acknowledgements and nothing else. -/
def OnlyAcks (calls : List SenderCall) : Prop :=
  ∀ call ∈ calls, ∃ ack, call = .send (.publishAck ack)

/-- Acknowledgements publish nothing. -/
theorem OnlyAcks.not_publish {calls : List SenderCall} (h : OnlyAcks calls) (p : Publish) :
    .publish p ∉ sentPackets calls := by
  intro hmem
  rcases List.mem_filterMap.mp hmem with ⟨call, hcall, hsent⟩
  rcases h call hcall with ⟨ack, rfl⟩
  cases hsent

/-- Acknowledgements stop nothing. -/
theorem OnlyAcks.stops {calls : List SenderCall} (h : OnlyAcks calls) :
    Dispatch.stops calls = false := by
  apply List.any_eq_false.mpr
  intro call hcall
  rcases h call hcall with ⟨ack, rfl⟩
  exact Bool.false_ne_true

/-- How a publication answers an event. -/
structure Reaction (α : Type) where
  /-- The calls made on the connection. -/
  calls : List SenderCall
  /-- Whether the publication asked its table to release it. -/
  released : Bool
  /-- The publication afterwards. -/
  after : α
deriving DecidableEq, Repr

/-- The same reaction of a publication seen under another type. -/
def Reaction.map {α β : Type} (f : α → β) (reaction : Reaction α) : Reaction β where
  calls := reaction.calls
  released := reaction.released
  after := f reaction.after

end Dispatch
end WallyIo
