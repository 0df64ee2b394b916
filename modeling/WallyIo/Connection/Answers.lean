import WallyIo.Connection.MqttConnection

/-!
# How a connection answers

What a connection does in answer to an event comes in four forms: it goes on without the
dispatcher, it is accepted, it hands a packet over and goes on, or it closes for some
reason.

Main results:

- Theorem {lit}`answer_of_handle`: the answer to an event has one of these forms.
- Theorem {lit}`handle_frame`: an event other than an accepted CONNECT hands over packets of
  a known client only, and no CONNECT.
- Theorem {lit}`written_of_handle`: a connection writes CONNACKs and PINGRESPs by itself.
-/

namespace WallyIo
namespace Connection

open Protocol
open Library
open Codec
open Dispatch

/-- Whether an action concerns neither the dispatcher nor the socket. -/
def Action.isQuiet : Action → Bool
  | .writePacket _ => true
  | .writePacketAndCloseConnection _ _ => true
  | .readFrame => true
  | .handlePacketReceived _ => false
  | .clientDisconnectedUngracefully _ _ => false
  | .stop => false

/-- Whether the dispatcher is told about a lost client rather than about a DISCONNECT. -/
def isUngraceful : DisconnectReason → Bool
  | .networkOrServerFailure => true
  | .protocolViolation => true
  | .keepAliveTimeoutExpired => true
  | .clientDisconnect => false
  | .authenticationFailed => false
  | .notADisconnect => false

/-- The packet that an action writes. -/
def Action.packet : Action → Option MqttPacket
  | .writePacket packet => some packet
  | .writePacketAndCloseConnection packet _ => some packet
  | _ => none

/-- The packets that a list of actions writes. -/
def written (actions : List Action) : List MqttPacket := actions.filterMap Action.packet

@[simp]
theorem written_append (xs ys : List Action) : written (xs ++ ys) = written xs ++ written ys :=
  List.filterMap_append

namespace MqttConnection

variable (c : MqttConnection)

/-- Why an event makes a connection close, if it does. -/
def closeReason : ConnectionEvent → Option DisconnectReason
  | .received .disconnect _ => some .clientDisconnect
  | .received (.connect _) _ => if c.clientId.isSome then some .protocolViolation else none
  | .malformed => some .protocolViolation
  | .readFailed (.other _) => some .networkOrServerFailure
  | .written i ok =>
      match c.writes[i]? with
      | some .keeps => if ok then none else some .networkOrServerFailure
      | some (.closes reason) => some reason
      | none => none
  | .connectionTimeout => some .protocolViolation
  | .keepAliveTimeout => some .keepAliveTimeoutExpired
  | _ => none

/-- The packets that a connection answers by itself. -/
def AnsweredAlone (event : ConnectionEvent) : Prop :=
  ∀ packet authenticated, event = .received packet authenticated →
    packet.type = .connect ∧ authenticated = false ∨ packet.type = .pingreq

/-- A connection that differs in its handlers only. -/
structure SameClient (c' : MqttConnection) : Prop where
  clientId : c'.clientId = c.clientId
  isOpen : c'.isOpen = c.isOpen

/-- How a connection answers an event. -/
inductive Answer (event : ConnectionEvent) : MqttConnection → List Action → Prop
  /-- It goes on without the dispatcher. -/
  | quiet (c' : MqttConnection) (actions : List Action) (hsame : c.SameClient c')
      (hquiet : ∀ action ∈ actions, action.isQuiet = true)
      (hreason : c.closeReason event = none) (halone : AnsweredAlone event) :
      Answer event c' actions
  /-- Its CONNECT is accepted. -/
  | accepted (connect : Connect) (he : event = .received (.connect connect) true)
      (hclient : c.clientId = none) (hopen : c.isOpen = true) :
      Answer event (c.onFrameRead.connected connect)
        (dispatchConnectPacket connect ++ [.readFrame])
  /-- It hands a packet over. -/
  | handedOver (clientId : Bytes) (packet : MqttPacket) (authenticated : Bool)
      (he : event = .received packet authenticated) (hclient : c.clientId = some clientId)
      (hconnect : packet.type ≠ .connect) (hdisconnect : packet.type ≠ .disconnect) :
      Answer event c.onFrameRead
        [.handlePacketReceived ⟨clientId, packet, .notADisconnect⟩, .readFrame]
  /-- It closes. -/
  | closed (c' : MqttConnection) (reason : DisconnectReason) (more : List Action)
      (hsame : c.SameClient c') (hreason : c.closeReason event = some reason)
      (hquiet : ∀ action ∈ more, action.isQuiet = true) :
      Answer event c' (c.connectionCloseRequested reason ++ more)

variable {c} {c' : MqttConnection} {event : ConnectionEvent} {actions : List Action}

theorem sameClient_onFrameRead : c.SameClient c.onFrameRead := ⟨rfl, rfl⟩

/-- Only the client identifier decides what closing a connection means. -/
theorem SameClient.connectionCloseRequested (h : c.SameClient c') (reason : DisconnectReason) :
    c'.connectionCloseRequested reason = c.connectionCloseRequested reason := by
  unfold MqttConnection.connectionCloseRequested
  rw [h.clientId]

/-- What the dispatcher is told about a client whose connection closes. -/
theorem connectionCloseRequested_of_some {clientId : Bytes} (h : c.clientId = some clientId)
    (reason : DisconnectReason) :
    c.connectionCloseRequested reason =
      if isUngraceful reason then [.clientDisconnectedUngracefully clientId reason, .stop]
      else [.handlePacketReceived ⟨clientId, .disconnect, reason⟩, .stop] := by
  rw [connectionCloseRequested, h]
  cases reason <;> rfl

/-- A connection that closes and does nothing else. -/
theorem Answer.closes (hsame : c.SameClient c') {reason : DisconnectReason}
    (hreason : c.closeReason event = some reason) :
    c.Answer event c' (c.connectionCloseRequested reason) := by
  have hanswer := Answer.closed c' reason [] hsame hreason
    (fun _ hmem => absurd hmem List.not_mem_nil)
  rw [List.append_nil] at hanswer
  exact hanswer

/-- A connection that closes after the handler of its read operation has begun. -/
theorem Answer.closes_onFrameRead {reason : DisconnectReason}
    (hreason : c.closeReason event = some reason) :
    c.Answer event c.onFrameRead (c.onFrameRead.connectionCloseRequested reason) := by
  rw [sameClient_onFrameRead.connectionCloseRequested]
  exact .closes sameClient_onFrameRead hreason

/-- A connection that closes after the handler of a write operation has begun. -/
theorem Answer.closes_written {i : Nat} {reason : DisconnectReason}
    (hreason : c.closeReason event = some reason) :
    c.Answer event { c with writes := c.writes.eraseIdx i }
      (({ c with writes := c.writes.eraseIdx i } : MqttConnection).connectionCloseRequested
        reason) := by
  have hsame : c.SameClient { c with writes := c.writes.eraseIdx i } := ⟨rfl, rfl⟩
  rw [hsame.connectionCloseRequested]
  exact .closes hsame hreason

/-- A connection that does nothing. -/
theorem Answer.nothing (hsame : c.SameClient c') (hreason : c.closeReason event = none)
    (halone : AnsweredAlone event) : c.Answer event c' [] :=
  .quiet c' [] hsame (fun _ hmem => absurd hmem List.not_mem_nil) hreason halone

/-- The answer to a CONNECT. -/
theorem answer_of_processConnectPacket {connect : Connect} {authenticated : Bool}
    (h : c.onFrameRead.processConnectPacket connect authenticated = .ok (c', actions)) :
    c.Answer (.received (.connect connect) authenticated) c' (actions ++ [.readFrame]) := by
  cases hclient : c.clientId with
  | some clientId =>
      simp only [processConnectPacket, clientId_onFrameRead, hclient, Except.ok.injEq,
        Prod.mk.injEq] at h
      rcases h with ⟨rfl, rfl⟩
      rw [sameClient_onFrameRead.connectionCloseRequested]
      refine .closed _ _ _ sameClient_onFrameRead ?_ ?_
      · rw [closeReason, hclient]
        rfl
      · simp [Action.isQuiet]
  | none =>
      cases hopen : c.isOpen with
      | false => simp [processConnectPacket, hclient, hopen] at h
      | true =>
          cases authenticated with
          | false =>
              simp only [processConnectPacket, clientId_onFrameRead, hclient,
                isOpen_onFrameRead, hopen, Bool.not_true, Bool.false_eq_true, if_false,
                Bool.not_false, if_true, Except.ok.injEq, Prod.mk.injEq] at h
              rcases h with ⟨rfl, rfl⟩
              refine .quiet _ _ sameClient_onFrameRead ?_ ?_ ?_
              · simp [Action.isQuiet]
              · rw [closeReason, hclient]
                rfl
              · intro packet authenticated he
                cases he
                exact Or.inl ⟨rfl, rfl⟩
          | true =>
              simp only [processConnectPacket, clientId_onFrameRead, hclient,
                isOpen_onFrameRead, hopen, Bool.not_true, Bool.false_eq_true, if_false,
                Except.ok.injEq, Prod.mk.injEq] at h
              rcases h with ⟨rfl, rfl⟩
              exact .accepted connect rfl hclient hopen

/-- The answer to a packet. -/
theorem answer_of_processDecodedPacket {packet : MqttPacket} {authenticated : Bool}
    (h : c.onFrameRead.processDecodedPacket packet authenticated = .ok (c', actions)) :
    c.Answer (.received packet authenticated) c' actions := by
  have hands : ∀ {packet : MqttPacket} {actions' : List Action}, packet.type ≠ .connect →
      packet.type ≠ .disconnect → c.onFrameRead.dispatchPacket packet = .ok actions' →
        c.Answer (.received packet authenticated) c.onFrameRead (actions' ++ [.readFrame]) := by
    intro packet actions' hconnect hdisconnect hdispatch
    cases hclient : c.clientId with
    | none =>
        rw [dispatchPacket, clientId_onFrameRead, hclient] at hdispatch
        cases hdispatch
    | some clientId =>
        rw [dispatchPacket, clientId_onFrameRead, hclient] at hdispatch
        cases hdispatch
        exact .handedOver clientId packet authenticated rfl hclient hconnect hdisconnect
  cases packet with
  | connect connect =>
      rcases bind_eq_ok_iff.mp h with ⟨⟨c'', actions'⟩, hprocess, hresult⟩
      cases hresult
      exact answer_of_processConnectPacket hprocess
  | pingreq =>
      cases h
      refine .quiet _ _ sameClient_onFrameRead (by simp [Action.isQuiet]) rfl ?_
      intro packet authenticated he
      cases he
      exact Or.inr rfl
  | disconnect =>
      rcases bind_eq_ok_iff.mp h with ⟨actions', hdispatch, hresult⟩
      cases hresult
      cases hclient : c.clientId with
      | none =>
          rw [dispatchDisconnectPacket, clientId_onFrameRead, hclient] at hdispatch
          cases hdispatch
      | some clientId =>
          rw [dispatchDisconnectPacket, clientId_onFrameRead, hclient] at hdispatch
          cases hdispatch
          have hreason : c.closeReason (.received .disconnect authenticated) =
              some .clientDisconnect := rfl
          have hanswer := Answer.closes_onFrameRead hreason
          rw [connectionCloseRequested, clientId_onFrameRead, hclient] at hanswer
          exact hanswer
  | subscribe | unsubscribe | publish =>
      rcases bind_eq_ok_iff.mp h with ⟨actions', hdispatch, hresult⟩
      cases hresult
      refine hands ?_ ?_ hdispatch <;>
        (intro htype; cases htype)
  | publishAck ack =>
      rcases bind_eq_ok_iff.mp h with ⟨actions', hdispatch, hresult⟩
      cases hresult
      refine hands ?_ ?_ hdispatch <;>
        (intro htype; cases ack <;> cases htype)
  | connack | pingresp | suback | unsuback => cases h

/-- The answer to an event has one of the four forms. -/
theorem answer_of_handle (h : c.handle event = some (.ok (c', actions))) :
    c.Answer event c' actions := by
  cases event with
  | received packet authenticated =>
      simp only [handle] at h
      split at h
      · rw [Option.some.injEq] at h
        exact answer_of_processDecodedPacket h
      · cases h
  | frameArrives =>
      simp only [handle] at h
      split at h
      · cases h
        exact .nothing ⟨rfl, rfl⟩ rfl (fun _ _ he => by cases he)
      · cases h
  | malformed =>
      simp only [handle] at h
      split at h
      · cases h
        exact .closes_onFrameRead rfl
      · cases h
  | readFailed ec =>
      simp only [handle] at h
      split at h
      · cases ec with
        | operationAborted =>
            simp only at h
            split at h
            · cases h
            · cases h
              exact .nothing sameClient_onFrameRead rfl (fun _ _ he => by cases he)
        | other message =>
            cases h
            exact .closes_onFrameRead rfl
      · cases h
  | written i ok =>
      simp only [handle] at h
      split at h
      · rename_i handler hhandler
        cases h
        cases handler with
        | keeps =>
            cases ok with
            | true =>
                have hreason : c.closeReason (.written i true) = none := by
                  simp [closeReason, hhandler]
                exact .nothing ⟨rfl, rfl⟩ hreason (fun _ _ he => by cases he)
            | false =>
                have hreason : c.closeReason (.written i false) =
                    some .networkOrServerFailure := by
                  simp [closeReason, hhandler]
                exact .closes_written hreason
        | closes reason => exact .closes_written (by simp [closeReason, hhandler])
      · cases h
  | connectionTimerElapses | connectionTimerAborted | keepAliveTimerElapses =>
      simp only [handle, Option.map_eq_some_iff] at h
      rcases h with ⟨timer, -, h⟩
      cases h
      exact .nothing ⟨rfl, rfl⟩ rfl (fun _ _ he => by cases he)
  | connectionTimeout =>
      simp only [handle, Option.map_eq_some_iff] at h
      rcases h with ⟨timer, -, h⟩
      cases h
      have hreason : c.closeReason .connectionTimeout = some .protocolViolation := rfl
      refine .closes ?_ hreason
      exact ⟨rfl, rfl⟩
  | keepAliveTimeout =>
      simp only [handle, Option.map_eq_some_iff] at h
      rcases h with ⟨timer, -, h⟩
      cases h
      have hreason : c.closeReason .keepAliveTimeout = some .keepAliveTimeoutExpired := rfl
      refine .closes ?_ hreason
      exact ⟨rfl, rfl⟩
  | keepAliveTimerAborted =>
      simp only [handle, Option.map_eq_some_iff] at h
      rcases h with ⟨timer, -, h⟩
      cases h
      refine .nothing ⟨?_, ?_⟩ rfl (fun _ _ he => by cases he)
      · split
        · rw [clientId_startKeepAlive]
        · rfl
      · split
        · rw [isOpen_startKeepAlive]
        · rfl

/-! ## What is handed over -/

/-- Quiet actions hand nothing over. -/
theorem containers_quiet (hquiet : ∀ action ∈ actions, action.isQuiet = true) :
    containers actions = [] := by
  apply List.filterMap_eq_nil_iff.mpr
  intro action hmem
  have haction := hquiet action hmem
  cases action with
  | handlePacketReceived => cases haction
  | _ => rfl

/-- An event other than an accepted CONNECT leaves the client identifier alone and hands
over packets of a known client only, and no CONNECT. -/
theorem handle_frame (haccepts : ¬ c.Accepts event)
    (h : c.handle event = some (.ok (c', actions))) :
    c'.clientId = c.clientId ∧ c.HandsOver actions := by
  cases answer_of_handle h with
  | quiet _ _ hsame hquiet =>
      exact ⟨hsame.clientId, handsOver_of_nil (containers_quiet hquiet)⟩
  | accepted connect he hclient hopen => exact absurd ⟨connect, he, hclient, hopen⟩ haccepts
  | handedOver clientId packet authenticated he hclient hconnect =>
      refine ⟨rfl, ?_⟩
      intro container hmem
      simp only [containers, Action.container, List.filterMap_cons, List.filterMap_nil,
        List.mem_singleton] at hmem
      simp [hmem, hclient, PacketContainer.isConnect, hconnect]
  | closed _ reason more hsame hreason hquiet =>
      refine ⟨hsame.clientId, ?_⟩
      intro container hmem
      rw [containers, List.filterMap_append] at hmem
      rcases List.mem_append.mp hmem with hmem | hmem
      · exact containers_connectionCloseRequested reason container hmem
      · rw [← containers, containers_quiet hquiet] at hmem
        cases hmem

/-! ## What is written -/

/-- What a connection answers by itself. -/
def ownAnswers (c : MqttConnection) : ConnectionEvent → List MqttPacket
  | .received (.connect _) authenticated =>
      if c.clientId.isSome then []
      else [.connack ⟨false,
        if authenticated then .connectionAccepted else .badUsernameOrPassword⟩]
  | .received .pingreq _ => [.pingresp]
  | _ => []

/-- A connection that closes writes nothing. -/
theorem written_connectionCloseRequested (c : MqttConnection) (reason : DisconnectReason) :
    written (c.connectionCloseRequested reason) = [] := by
  rw [connectionCloseRequested]
  cases c.clientId with
  | none => rfl
  | some clientId => cases reason <;> rfl

/-- A handler of a write operation writes nothing. -/
theorem written_onWritten (c : MqttConnection) (handler : WriteHandler) (ok : Bool) :
    written (c.onWritten handler ok) = [] := by
  cases handler with
  | closes reason => exact written_connectionCloseRequested c reason
  | keeps =>
      cases ok with
      | true => rfl
      | false => exact written_connectionCloseRequested c .networkOrServerFailure

/-- A connection writes a CONNACK until its client is known. -/
theorem written_of_processConnectPacket {connect : Connect} {authenticated : Bool}
    (h : c.processConnectPacket connect authenticated = .ok (c', actions)) :
    written actions = c.ownAnswers (.received (.connect connect) authenticated) := by
  rw [processConnectPacket] at h
  rw [ownAnswers]
  cases hclient : c.clientId with
  | some clientId =>
      rw [hclient] at h
      cases h
      exact written_connectionCloseRequested c _
  | none =>
      rw [hclient] at h
      cases hopen : c.isOpen with
      | false => simp [hopen] at h
      | true =>
          cases authenticated with
          | false =>
              simp only [hopen, Bool.not_true, Bool.false_eq_true, if_false, Bool.not_false,
                if_true, Except.ok.injEq, Prod.mk.injEq] at h
              rw [← h.2]
              rfl
          | true =>
              simp only [hopen, Bool.not_true, Bool.false_eq_true, if_false, Except.ok.injEq,
                Prod.mk.injEq] at h
              rw [← h.2]
              rfl

/-- Of its own accord a connection writes a CONNACK until its client is known, a PINGRESP for each
PINGREQ, and nothing for other packets. -/
theorem written_of_processDecodedPacket {packet : MqttPacket} {authenticated : Bool}
    (h : c.processDecodedPacket packet authenticated = .ok (c', actions)) :
    written actions = c.ownAnswers (.received packet authenticated) := by
  have hands : ∀ {packet : MqttPacket} {actions' : List Action},
      c.dispatchPacket packet = .ok actions' → written (actions' ++ [.readFrame]) = [] := by
    intro packet actions' hdispatch
    rw [dispatchPacket] at hdispatch
    split at hdispatch
    · cases hdispatch
      rfl
    · cases hdispatch
  cases packet with
  | connect connect =>
      obtain ⟨⟨c'', actions'⟩, hprocess, hresult⟩ := bind_eq_ok_iff.mp h
      cases hresult
      rw [written_append, written_of_processConnectPacket hprocess]
      exact List.append_nil _
  | pingreq =>
      cases h
      rfl
  | disconnect =>
      obtain ⟨actions', hdispatch, hresult⟩ := bind_eq_ok_iff.mp h
      cases hresult
      rw [dispatchDisconnectPacket] at hdispatch
      split at hdispatch
      · cases hdispatch
        rfl
      · cases hdispatch
  | subscribe | unsubscribe | publish | publishAck =>
      obtain ⟨actions', hdispatch, hresult⟩ := bind_eq_ok_iff.mp h
      cases hresult
      exact hands hdispatch
  | connack | pingresp | suback | unsuback => cases h

/-- What a connection writes. -/
theorem written_of_handle (h : c.handle event = some (.ok (c', actions))) :
    written actions = c.ownAnswers event := by
  cases event with
  | received packet authenticated =>
      simp only [handle] at h
      split at h
      · have hwritten := written_of_processDecodedPacket (Option.some.inj h)
        exact hwritten
      · cases h
  | frameArrives =>
      simp only [handle] at h
      split at h
      · cases h
        rfl
      · cases h
  | malformed =>
      simp only [handle] at h
      split at h
      · cases h
        exact written_connectionCloseRequested _ _
      · cases h
  | readFailed ec =>
      simp only [handle] at h
      split at h
      · cases ec with
        | operationAborted =>
            simp only at h
            split at h
            · cases h
            · cases h
              rfl
        | other message =>
            cases h
            exact written_connectionCloseRequested _ _
      · cases h
  | written i ok =>
      simp only [handle] at h
      split at h
      · cases h
        exact written_onWritten _ _ _
      · cases h
  | connectionTimerElapses | connectionTimerAborted | keepAliveTimerElapses
  | keepAliveTimerAborted =>
      obtain ⟨timer, -, hresult⟩ := Option.map_eq_some_iff.mp h
      cases hresult
      rfl
  | connectionTimeout | keepAliveTimeout =>
      obtain ⟨timer, -, hresult⟩ := Option.map_eq_some_iff.mp h
      cases hresult
      exact written_connectionCloseRequested _ _

end MqttConnection

end Connection
end WallyIo
