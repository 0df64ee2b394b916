import WallyIo.Connection.Answers
import WallyIo.Dispatch.SessionEnds

/-!
# The server

All client connections together with the session manager.  A handler of a connection runs
to its end: the dispatcher is called in its course, and what the sessions do to their
connections happens while it is at work.

A PUBLISH that becomes too long for a subscriber is out of scope: the encoder throws when it is
sent, and the connection on which it has been received is closed as it is for a malformed frame.

Main results:

- Theorem {lit}`outcome_of_perform`: what an event does to the connections, to the session
  manager and to the outside.
- Theorem {lit}`sessionManager_run`: the session manager of a server runs as it does on its
  own.
-/

namespace WallyIo
namespace Server

open Protocol
open Library
open Connection
open Dispatch
open SessionManager (stopped)

/-! ## State and events -/

/-- The server, with all connections that have been accepted so far in this order. -/
structure MqttServer where
  connections : List MqttConnection
  sessionManager : SessionManager

/-- What happens to the server.  Connection objects that a handler elsewhere refers to exist
even if they have nothing more to do themselves. -/
inductive ServerEvent
  /-- A client has opened a connection. -/
  | accepted
  | connection (connection : ConnectionId) (event : ConnectionEvent)
  /-- A timer of a session, or a change in the order of a hashed container. -/
  | session (event : SessionManager.Event)
  /-- {lit}`close_connections`, or a termination signal. -/
  | stopAll
deriving DecidableEq, Repr

/-- What the server does besides changing its state. -/
inductive Output
  /-- The session manager acts.  It may call {lit}`send` on a connection that has been closed, which
  does nothing then. -/
  | effect (effect : Effect)
  /-- A connection sends a packet of its own. -/
  | write (connection : ConnectionId) (packet : MqttPacket)
deriving DecidableEq, Repr

/-- Whether an output gets through, given the connections that are open. -/
def Output.getsThrough (isOpen : ConnectionId → Bool) : Output → Bool
  | .effect (.call _ k (.send _)) => isOpen k
  | .effect _ => true
  | .write k _ => isOpen k

/-- Whether an event of the session manager comes from no connection. -/
def isInternal : SessionManager.Event → Bool
  | .txTimerElapses _ _ => true
  | .txTimeout _ _ => true
  | .rxTimerElapses _ _ => true
  | .rxTimeout _ _ => true
  | .subscriptionsReordered _ => true
  | .messagesReordered _ => true
  | _ => false

namespace MqttServer

/-- The constructor. -/
def create (maxRetries : Nat) : MqttServer where
  connections := []
  sessionManager := SessionManager.create maxRetries

variable (server : MqttServer) (kept : ConnectionId → Bool)

/-- Which connection objects exist, and whom they belong to. -/
def view : Connections := fun k =>
  server.connections[k]?.bind fun c => if c.alive || kept k then some c.clientId else none

/-- Whether a connection is open. -/
def isOpenAt (k : ConnectionId) : Bool := server.connections[k]?.any MqttConnection.isOpen

/-- The outputs of an event, without the packets that are not sent because their connection is
closed.  It makes no difference when this is looked up: an event that sends a packet on a connection
does not close the connection before. -/
def carriedOut (outputs : List Output) : List Output :=
  outputs.filter (Output.getsThrough server.isOpenAt)

/-- Change a connection. -/
def modify (k : ConnectionId) (f : MqttConnection → MqttConnection) : MqttServer :=
  { server with connections := server.connections.modify k f }

/-- Carry out what the session manager does to a connection. -/
def applyEffect : Effect → MqttServer
  | .call _ k call => server.modify k (·.applyCall call)
  | .publish _ => server

/-- Have the session manager process an event. -/
def dispatch (event : SessionManager.Event) :
    Option (Except Fault (List Output × MqttServer)) :=
  (server.sessionManager.perform (server.view kept) event).map
    (Except.map fun (effects, sessionManager) =>
      (effects.map .effect,
        effects.foldl applyEffect { server with sessionManager := sessionManager }))

/-- A connection writes a packet, unless its socket is closed. -/
def writes (k : ConnectionId) (packet : MqttPacket) : List Output :=
  if server.isOpenAt k then [.write k packet] else []

/-- Carry out an action of a connection. -/
def performAction (k : ConnectionId) :
    Action → Option (Except Fault (List Output × MqttServer))
  | .handlePacketReceived container =>
      match SessionManager.handlePacketReceived container k with
      | .ok event => server.dispatch kept event
      | .error failure => some (.error failure)
  | .clientDisconnectedUngracefully clientId reason =>
      server.dispatch kept (.clientDisconnectedUngracefully clientId reason)
  | .writePacket packet =>
      some (.ok (server.writes k packet, server.modify k (·.write .keeps)))
  | .writePacketAndCloseConnection packet reason =>
      some (.ok (server.writes k packet, server.modify k (·.write (.closes reason))))
  | .stop => some (.ok ([], server.modify k MqttConnection.doStop))
  | .readFrame => some (.ok ([], server.modify k MqttConnection.readFrame))

/-- Carry out the actions of a connection in order. -/
def performActions (k : ConnectionId) :
    List Action → MqttServer → Option (Except Fault (List Output × MqttServer))
  | [], server => some (.ok ([], server))
  | action :: rest, server =>
      match server.performAction kept k action with
      | some (.ok (outputs, server)) =>
          (performActions k rest server).map
            (Except.map fun (more, server) => (outputs ++ more, server))
      | some (.error failure) => some (.error failure)
      | none => none

/-- Close all connections that are managed. -/
def stopAll : MqttServer :=
  { server with
    connections := server.connections.map fun c => if c.isOpen then c.doStop else c }

/-- One event.  The connection whose handler runs exists. -/
def perform : ServerEvent → Option (Except Fault (List Output × MqttServer))
  | .accepted =>
      some (.ok ([], { server with
        connections := server.connections ++ [MqttConnection.started] }))
  | .connection k event =>
      match server.connections[k]? with
      | some c =>
          match c.handle event with
          | some (.ok (c, actions)) =>
              performActions (fun i => kept i || i == k) k actions (server.modify k fun _ => c)
          | some (.error failure) => some (.error failure)
          | none => none
      | none => none
  | .session event => if isInternal event then server.dispatch kept event else none
  | .stopAll => some (.ok ([], server.stopAll))

/-- The machine of the server. -/
def machine : Machine (Option MqttServer) ((ConnectionId → Bool) × ServerEvent)
    (Except Fault (List Output)) :=
  Machine.ofFallible fun server e => server.perform e.1 e.2

end MqttServer

/-- Executed steps of the server. -/
abbrev ServerStep :=
  Step (Option MqttServer) ((ConnectionId → Bool) × ServerEvent) (Except Fault (List Output))

/-! ## What becomes of the connections -/

namespace MqttServer

variable (server : MqttServer)

/-- The client identifier of a connection that has been accepted. -/
def clientOf (k : ConnectionId) : Option (Option Bytes) :=
  server.connections[k]?.map MqttConnection.clientId

/-- The connections keep their clients, and some of them are closed. -/
structure Closes (closed : ConnectionId → Bool) (after : MqttServer) : Prop where
  clientOf : ∀ k, after.clientOf k = server.clientOf k
  isOpenAt : ∀ k, after.isOpenAt k = (server.isOpenAt k && !closed k)

variable {server} {after last : MqttServer} {closed closed' : ConnectionId → Bool}

/-- Servers with the same connections. -/
theorem closes_none (h : after.connections = server.connections) :
    server.Closes (fun _ => false) after where
  clientOf k := by rw [MqttServer.clientOf, MqttServer.clientOf, h]
  isOpenAt k := by simp [MqttServer.isOpenAt, h]

theorem Closes.trans (h : server.Closes closed after) (h' : after.Closes closed' last) :
    server.Closes (fun k => closed k || closed' k) last where
  clientOf k := (h'.clientOf k).trans (h.clientOf k)
  isOpenAt k := by
    rw [h'.isOpenAt, h.isOpenAt, Bool.not_or, Bool.and_assoc]

theorem Closes.congr (h : server.Closes closed after) (heq : ∀ k, closed k = closed' k) :
    server.Closes closed' after where
  clientOf := h.clientOf
  isOpenAt k := by rw [h.isOpenAt, heq]

variable (server) in
/-- A connection that is changed, and closed if the flag is set. -/
theorem closes_modify (k : ConnectionId) (b : Bool) {f : MqttConnection → MqttConnection}
    (hclient : ∀ c, server.connections[k]? = some c → (f c).clientId = c.clientId)
    (hopen : ∀ c, server.connections[k]? = some c → (f c).isOpen = (c.isOpen && !b)) :
    server.Closes (fun j => b && j == k) (server.modify k f) where
  clientOf j := by
    rw [MqttServer.clientOf, MqttServer.clientOf, modify, List.getElem?_modify]
    by_cases hj : k = j
    · subst hj
      cases hc : server.connections[k]? with
      | none => simp
      | some c => simp [hclient c hc]
    · simp [hj]
  isOpenAt j := by
    rw [MqttServer.isOpenAt, MqttServer.isOpenAt, modify, List.getElem?_modify]
    by_cases hj : k = j
    · subst hj
      cases hc : server.connections[k]? with
      | none => simp
      | some c => simp [hopen c hc]
    · have hj' : (j == k) = false := by simp [Ne.symm hj]
      simp [hj, hj']

@[simp]
theorem sessionManager_modify (k : ConnectionId) (f : MqttConnection → MqttConnection) :
    (server.modify k f).sessionManager = server.sessionManager := rfl

theorem closes_applyEffect (e : Effect) :
    server.Closes (stopped [e]) (server.applyEffect e) := by
  cases e with
  | publish p => exact (closes_none rfl).congr fun k => rfl
  | call x k call =>
      have hclosed := closes_modify server k call.isStop (f := (·.applyCall call))
        (fun c _ => MqttConnection.clientId_applyCall call) (fun c _ => by
          cases call <;> simp [MqttConnection.applyCall, SenderCall.isStop])
      apply hclosed.congr
      intro j
      simp only [stopped, List.any_cons, List.any_nil, Bool.or_false]
      rw [Bool.and_comm, BEq.comm]

/-- The session manager stops connections and does nothing else that matters here. -/
theorem closes_foldl_applyEffect (effects : List Effect) :
    server.Closes (stopped effects) (effects.foldl applyEffect server) := by
  induction effects generalizing server with
  | nil => exact (closes_none rfl).congr fun k => rfl
  | cons e effects ih =>
      apply ((closes_applyEffect e).trans ih).congr
      intro k
      simp [stopped]

@[simp]
theorem sessionManager_foldl_applyEffect (effects : List Effect) :
    (effects.foldl applyEffect server).sessionManager = server.sessionManager := by
  induction effects generalizing server with
  | nil => rfl
  | cons e effects ih =>
      rw [List.foldl_cons, ih]
      cases e <;> rfl

end MqttServer

/-! ## What an event does -/

namespace MqttServer

variable {server after : MqttServer} {kept : ConnectionId → Bool} {outputs : List Output}
  {k : ConnectionId}

/-- A packet that a connection sends of its own accord. -/
def IsWrite (k : ConnectionId) (output : Output) : Prop := ∃ packet, output = .write k packet

theorem isWrite_of_mem_writes {packet : MqttPacket} :
    ∀ output ∈ server.writes k packet, IsWrite k output := by
  intro output hmem
  rw [writes, List.mem_ite_nil_right] at hmem
  exact ⟨packet, List.mem_singleton.mp hmem.2⟩

/-- What the session manager does when it processes an event. -/
theorem dispatch_eq_ok {event : SessionManager.Event}
    (h : server.dispatch kept event = some (.ok (outputs, after))) :
    ∃ effects, server.sessionManager.perform (server.view kept) event =
        some (.ok (effects, after.sessionManager)) ∧
      outputs = effects.map .effect ∧ server.Closes (stopped effects) after := by
  rcases Option.map_eq_some_iff.mp h with ⟨result, hperform, hresult⟩
  cases result with
  | error failure => cases hresult
  | ok r =>
      cases hresult
      refine ⟨r.1, ?_, rfl, ?_⟩
      · rw [sessionManager_foldl_applyEffect]
        exact hperform
      · have hsame : server.Closes (fun _ => false)
            { server with sessionManager := r.2 } := closes_none rfl
        exact (hsame.trans (closes_foldl_applyEffect r.1)).congr fun k => Bool.false_or _

/-- A list of actions is carried out one by one. -/
theorem performActions_cons_eq_ok_iff {action : Action} {rest : List Action} :
    performActions kept k (action :: rest) server = some (.ok (outputs, after)) ↔
      ∃ first next more, server.performAction kept k action = some (.ok (first, next)) ∧
        performActions kept k rest next = some (.ok (more, after)) ∧
          outputs = first ++ more := by
  simp only [performActions]
  constructor
  · intro h
    split at h
    · rename_i first next hfirst
      rcases Option.map_eq_some_iff.mp h with ⟨result, hrest, hresult⟩
      cases result with
      | error failure => cases hresult
      | ok r =>
          cases hresult
          exact ⟨first, next, r.1, hfirst, hrest, rfl⟩
    · cases h
    · cases h
  · rintro ⟨first, next, more, hfirst, hrest, rfl⟩
    rw [hfirst]
    simp only [hrest, Option.map_some, Except.map]

/-- Quiet actions send packets and close nothing. -/
theorem performActions_quiet {actions : List Action}
    (hquiet : ∀ action ∈ actions, action.isQuiet = true)
    (h : performActions kept k actions server = some (.ok (outputs, after))) :
    server.Closes (fun _ => false) after ∧ after.sessionManager = server.sessionManager ∧
      ∀ output ∈ outputs, IsWrite k output := by
  induction actions generalizing server outputs with
  | nil =>
      cases h
      exact ⟨closes_none rfl, rfl, fun _ hmem => absurd hmem List.not_mem_nil⟩
  | cons action rest ih =>
      rcases performActions_cons_eq_ok_iff.mp h with ⟨first, next, more, hfirst, hrest, rfl⟩
      have hstep : server.Closes (fun _ => false) next ∧
          next.sessionManager = server.sessionManager ∧ ∀ o ∈ first, IsWrite k o := by
        have hmodify : ∀ f : MqttConnection → MqttConnection,
            (∀ c, (f c).clientId = c.clientId) → (∀ c, (f c).isOpen = c.isOpen) →
              server.Closes (fun _ => false) (server.modify k f) := by
          intro f hclient hopen
          have hsame := closes_modify server k false
            (fun c _ => hclient c) (fun c _ => by rw [hopen, Bool.not_false, Bool.and_true])
          exact hsame.congr fun j => Bool.false_and _
        have haction := hquiet action List.mem_cons_self
        cases action with
        | writePacket packet | writePacketAndCloseConnection packet reason =>
            cases hfirst
            exact ⟨hmodify _ (fun _ => MqttConnection.clientId_write _)
              (fun _ => MqttConnection.isOpen_write _), rfl, isWrite_of_mem_writes⟩
        | readFrame =>
            cases hfirst
            exact ⟨hmodify _ (fun _ => MqttConnection.clientId_readFrame)
              (fun _ => MqttConnection.isOpen_readFrame), rfl,
              fun _ hmem => absurd hmem List.not_mem_nil⟩
        | handlePacketReceived | clientDisconnectedUngracefully | stop => cases haction
      rcases ih (fun action hmem => hquiet action (List.mem_cons_of_mem _ hmem)) hrest with
        ⟨hcloses, hmanager, hwrites⟩
      refine ⟨(hstep.1.trans hcloses).congr fun _ => rfl, hmanager.trans hstep.2.1, ?_⟩
      intro output hmem
      rcases List.mem_append.mp hmem with hmem | hmem
      · exact hstep.2.2 output hmem
      · exact hwrites output hmem

end MqttServer

/-! ## Outcomes -/

namespace MqttServer

section Outcomes

variable (server : MqttServer) (kept : ConnectionId → Bool)

/-- Which connection objects exist while the handler of one of them runs. -/
def viewFrom (k : ConnectionId) (clientId : Bytes) : Connections := fun j =>
  if j = k then some (some clientId) else server.view kept j

/-- What the session manager is told when a connection closes. -/
def disconnectEvent (clientId : Bytes) (reason : DisconnectReason) : SessionManager.Event :=
  if isUngraceful reason then .clientDisconnectedUngracefully clientId reason
  else .clientDisconnected clientId reason

/-- What an event may do. -/
inductive Outcome : ServerEvent → List Output → MqttServer → Prop
  /-- There is one more connection. -/
  | accepted (after : MqttServer)
      (hclient : ∀ j, after.clientOf j =
        if j = server.connections.length then some none else server.clientOf j)
      (hopen : ∀ j, after.isOpenAt j =
        (decide (j = server.connections.length) || server.isOpenAt j))
      (hmanager : after.sessionManager = server.sessionManager) :
      Outcome .accepted [] after
  /-- A connection goes on without the session manager. -/
  | quiet (k : ConnectionId) (event : ConnectionEvent) (c : MqttConnection)
      (outputs : List Output) (after : MqttServer) (hc : server.connections[k]? = some c)
      (hreason : c.closeReason event = none) (halone : MqttConnection.AnsweredAlone event)
      (hcloses : server.Closes (fun _ => false) after)
      (hmanager : after.sessionManager = server.sessionManager)
      (hwrites : ∀ output ∈ outputs, IsWrite k output) :
      Outcome (.connection k event) outputs after
  /-- A CONNECT is accepted. -/
  | connected (k : ConnectionId) (connect : Connect) (c : MqttConnection)
      (outputs : List Output) (after : MqttServer) (hc : server.connections[k]? = some c)
      (hclientId : c.clientId = none) (hisOpen : c.isOpen = true)
      (hperform : server.sessionManager.perform (server.viewFrom kept k connect.clientId)
        (.clientConnected connect k) = some (.ok ([], after.sessionManager)))
      (hclient : ∀ j, after.clientOf j =
        if j = k then some (some connect.clientId) else server.clientOf j)
      (hopen : ∀ j, after.isOpenAt j = server.isOpenAt j)
      (hwrites : ∀ output ∈ outputs, IsWrite k output) :
      Outcome (.connection k (.received (.connect connect) true)) outputs after
  /-- A packet is handed over. -/
  | handedOver (k : ConnectionId) (packet : MqttPacket) (authenticated : Bool)
      (c : MqttConnection) (clientId : Bytes) (event : SessionManager.Event)
      (effects : List Effect) (outputs : List Output) (after : MqttServer)
      (hc : server.connections[k]? = some c) (hclientId : c.clientId = some clientId)
      (hconnect : packet.type ≠ .connect) (hdisconnect : packet.type ≠ .disconnect)
      (hevent : SessionManager.handlePacketReceived ⟨clientId, packet, .notADisconnect⟩ k =
        .ok event)
      (hperform : server.sessionManager.perform (server.viewFrom kept k clientId) event =
        some (.ok (effects, after.sessionManager)))
      (hcloses : server.Closes (stopped effects) after)
      (hwrites : ∀ output ∈ outputs, IsWrite k output) :
      Outcome (.connection k (.received packet authenticated))
        (effects.map .effect ++ outputs) after
  /-- A connection whose client is known closes. -/
  | closed (k : ConnectionId) (event : ConnectionEvent) (c : MqttConnection)
      (clientId : Bytes) (reason : DisconnectReason) (effects : List Effect)
      (outputs : List Output) (after : MqttServer) (hc : server.connections[k]? = some c)
      (hclientId : c.clientId = some clientId) (hreason : c.closeReason event = some reason)
      (hperform : server.sessionManager.perform (server.viewFrom kept k clientId)
        (disconnectEvent clientId reason) = some (.ok (effects, after.sessionManager)))
      (hcloses : server.Closes (fun j => stopped effects j || j == k) after)
      (hwrites : ∀ output ∈ outputs, IsWrite k output) :
      Outcome (.connection k event) (effects.map .effect ++ outputs) after
  /-- A connection whose client is not known closes. -/
  | closedUnknown (k : ConnectionId) (event : ConnectionEvent) (c : MqttConnection)
      (reason : DisconnectReason) (outputs : List Output) (after : MqttServer)
      (hc : server.connections[k]? = some c) (hclientId : c.clientId = none)
      (hreason : c.closeReason event = some reason)
      (hcloses : server.Closes (fun j => j == k) after)
      (hmanager : after.sessionManager = server.sessionManager)
      (hwrites : ∀ output ∈ outputs, IsWrite k output) :
      Outcome (.connection k event) outputs after
  /-- A session acts by itself. -/
  | session (event : SessionManager.Event) (effects : List Effect) (after : MqttServer)
      (hinternal : isInternal event = true)
      (hperform : server.sessionManager.perform (server.view kept) event =
        some (.ok (effects, after.sessionManager)))
      (hcloses : server.Closes (stopped effects) after) :
      Outcome (.session event) (effects.map .effect) after
  /-- All connections close. -/
  | stoppedAll (after : MqttServer) (hcloses : server.Closes (fun _ => true) after)
      (hmanager : after.sessionManager = server.sessionManager) : Outcome .stopAll [] after

variable {server} {kept} {after : MqttServer} {outputs : List Output} {k : ConnectionId}

/-- What the session manager sees while the handler of a connection runs. -/
theorem view_modify {c c' : MqttConnection} {clientId : Bytes}
    (hc : server.connections[k]? = some c) (hclient : c'.clientId = some clientId) :
    (server.modify k fun _ => c').view (fun i => kept i || i == k) =
      server.viewFrom kept k clientId := by
  funext j
  rw [view, viewFrom, modify, List.getElem?_modify]
  by_cases hj : k = j
  · subst hj
    simp [hc, hclient]
  · have hj' : (j == k) = false := by simp [Ne.symm hj]
    simp [hj, hj', Ne.symm hj, view]

/-- A connection that is stopped. -/
theorem closes_doStop : server.Closes (fun j => j == k) (server.modify k .doStop) := by
  have hcloses := closes_modify server k true (f := MqttConnection.doStop)
    (fun c _ => rfl) (fun c _ => by simp)
  exact hcloses.congr fun j => Bool.true_and _

/-- A handler that begins changes nothing that matters here. -/
theorem closes_begin {c c' : MqttConnection} (hc : server.connections[k]? = some c)
    (hsame : c.SameClient c') :
    server.Closes (fun _ => false) (server.modify k fun _ => c') := by
  have hcloses := closes_modify server k false (f := fun _ => c')
    (fun d hd => by
      rw [hc] at hd
      cases hd
      exact hsame.clientId)
    (fun d hd => by
      rw [hc] at hd
      cases hd
      rw [hsame.isOpen, Bool.not_false, Bool.and_true])
  exact hcloses.congr fun j => Bool.false_and _

/-- The session manager takes note of a CONNECT, and does nothing else. -/
theorem performAction_connect {connect : Connect} {reason : DisconnectReason}
    (h : server.performAction kept k
      (.handlePacketReceived ⟨connect.clientId, .connect connect, reason⟩) =
        some (.ok (outputs, after))) :
    outputs = [] ∧ server.Closes (fun _ => false) after ∧
      server.sessionManager.perform (server.view kept) (.clientConnected connect k) =
        some (.ok ([], after.sessionManager)) := by
  simp only [performAction] at h
  split at h
  · rename_i event hevent
    obtain ⟨-, hresult⟩ := assert_bind_eq_ok_iff.mp hevent
    cases hresult
    obtain ⟨effects, hperform, rfl, hcloses⟩ := dispatch_eq_ok h
    have hnone : effects = [] := by
      simp only [SessionManager.perform, Option.some.injEq] at hperform
      cases hresult : server.sessionManager.clientConnected (server.view kept) connect k with
      | error failure =>
          rw [hresult] at hperform
          cases hperform
      | ok m =>
          rw [hresult] at hperform
          cases hperform
          rfl
    subst hnone
    exact ⟨rfl, hcloses, hperform⟩
  · cases h

/-- A packet that has been accepted is announced to the session manager first. -/
theorem outcome_of_accepted {connect : Connect} {c : MqttConnection}
    (hc : server.connections[k]? = some c) (hclientId : c.clientId = none)
    (hisOpen : c.isOpen = true)
    (h : performActions (fun i => kept i || i == k) k
      (MqttConnection.dispatchConnectPacket connect ++ [.readFrame])
      (server.modify k fun _ => c.onFrameRead.connected connect) =
        some (.ok (outputs, after))) :
    server.Outcome kept (.connection k (.received (.connect connect) true)) outputs after := by
  rcases performActions_cons_eq_ok_iff.mp h with ⟨first, next, more, hfirst, hrest, rfl⟩
  rcases performAction_connect hfirst with ⟨rfl, hnext, hperform⟩
  rcases performActions_quiet (by simp [Action.isQuiet]) hrest with
    ⟨hcloses, hmanager, hwrites⟩
  rw [view_modify hc (MqttConnection.clientId_connected connect), sessionManager_modify]
    at hperform
  have hlast : (server.modify k fun _ => c.onFrameRead.connected connect).Closes
      (fun _ => false) after := (hnext.trans hcloses).congr fun _ => rfl
  refine .connected k connect c _ after hc hclientId hisOpen ?_ ?_ ?_ hwrites
  · rw [hmanager]
    exact hperform
  · intro j
    rw [hlast.clientOf, clientOf, clientOf, modify, List.getElem?_modify]
    by_cases hj : k = j
    · subst hj
      simp [hc]
    · simp [hj, Ne.symm hj]
  · intro j
    rw [hlast.isOpenAt, Bool.not_false, Bool.and_true, isOpenAt, isOpenAt, modify,
      List.getElem?_modify]
    by_cases hj : k = j
    · subst hj
      simp [hc]
    · simp [hj]

/-- A packet that is handed over is processed by the session manager first. -/
theorem outcome_of_handedOver {packet : MqttPacket} {authenticated : Bool} {c : MqttConnection}
    {clientId : Bytes} (hc : server.connections[k]? = some c)
    (hclientId : c.clientId = some clientId) (hconnect : packet.type ≠ .connect)
    (hdisconnect : packet.type ≠ .disconnect)
    (h : performActions (fun i => kept i || i == k) k
      [.handlePacketReceived ⟨clientId, packet, .notADisconnect⟩, .readFrame]
      (server.modify k fun _ => c.onFrameRead) = some (.ok (outputs, after))) :
    server.Outcome kept (.connection k (.received packet authenticated)) outputs after := by
  rcases performActions_cons_eq_ok_iff.mp h with ⟨first, next, more, hfirst, hrest, rfl⟩
  simp only [performAction] at hfirst
  split at hfirst
  · rename_i event hevent
    rcases dispatch_eq_ok hfirst with ⟨effects, hperform, rfl, hnext⟩
    rcases performActions_quiet (by simp [Action.isQuiet]) hrest with
      ⟨hcloses, hmanager, hwrites⟩
    have hsame : c.onFrameRead.clientId = some clientId := hclientId
    rw [view_modify hc hsame, sessionManager_modify, ← hmanager] at hperform
    refine .handedOver k packet authenticated c clientId event effects _ after hc hclientId
      hconnect hdisconnect hevent hperform ?_ hwrites
    apply (((closes_begin hc MqttConnection.sameClient_onFrameRead).trans hnext).trans
      hcloses).congr
    intro j
    simp
  · cases hfirst

/-- A connection that closes tells the session manager first, if its client is known. -/
theorem outcome_of_closed {event : ConnectionEvent} {c c' : MqttConnection}
    {reason : DisconnectReason} {actions : List Action}
    (hc : server.connections[k]? = some c) (hsame : c.SameClient c')
    (hreason : c.closeReason event = some reason)
    (hquiet : ∀ action ∈ actions, action.isQuiet = true)
    (h : performActions (fun i => kept i || i == k) k
      (c.connectionCloseRequested reason ++ actions) (server.modify k fun _ => c') =
        some (.ok (outputs, after))) :
    server.Outcome kept (.connection k event) outputs after := by
  have hbegin : server.Closes (fun _ => false) (server.modify k fun _ => c') :=
    closes_begin hc hsame
  cases hclientId : c.clientId with
  | none =>
      rw [MqttConnection.connectionCloseRequested, hclientId] at h
      rcases performActions_cons_eq_ok_iff.mp h with ⟨first, next, more, hfirst, hrest, rfl⟩
      cases hfirst
      rcases performActions_quiet hquiet hrest with ⟨hcloses, hmanager, hwrites⟩
      refine .closedUnknown k event c reason _ after hc hclientId hreason ?_ hmanager hwrites
      apply ((hbegin.trans closes_doStop).trans hcloses).congr
      intro j
      simp
  | some clientId =>
      have hstop : ∃ first next more, (server.modify k fun _ => c').dispatch
          (fun i => kept i || i == k) (disconnectEvent clientId reason) =
            some (.ok (first, next)) ∧
          performActions (fun i => kept i || i == k) k (.stop :: actions) next =
            some (.ok (more, after)) ∧ outputs = first ++ more := by
        rw [MqttConnection.connectionCloseRequested_of_some hclientId] at h
        rw [disconnectEvent]
        cases hungraceful : isUngraceful reason with
        | true =>
            rw [hungraceful, if_pos rfl] at h
            exact performActions_cons_eq_ok_iff.mp h
        | false =>
            rw [hungraceful, if_neg Bool.false_ne_true] at h
            exact performActions_cons_eq_ok_iff.mp h
      rcases hstop with ⟨first, next, more, hfirst, hmore, rfl⟩
      rcases performActions_cons_eq_ok_iff.mp hmore with
        ⟨none, stopped', rest, hstopped, hrest, rfl⟩
      cases hstopped
      rcases dispatch_eq_ok hfirst with ⟨effects, hperform, rfl, hnext⟩
      rcases performActions_quiet hquiet hrest with ⟨hcloses, hmanager, hwrites⟩
      rw [view_modify hc (hsame.clientId.trans hclientId), sessionManager_modify] at hperform
      refine .closed k event c clientId reason effects rest after hc hclientId hreason ?_ ?_
        hwrites
      · rw [hmanager]
        exact hperform
      · apply (((hbegin.trans hnext).trans closes_doStop).trans hcloses).congr
        intro j
        simp

/-- Every event has such an outcome. -/
theorem outcome_of_perform {event : ServerEvent}
    (h : server.perform kept event = some (.ok (outputs, after))) :
    server.Outcome kept event outputs after := by
  cases event with
  | accepted =>
      cases h
      refine .accepted _ ?_ ?_ rfl
      · intro j
        rw [clientOf, clientOf]
        rcases Nat.lt_trichotomy j server.connections.length with hj | rfl | hj
        · rw [List.getElem?_append_left hj, if_neg hj.ne]
        · simp [MqttConnection.started]
        · rw [if_neg hj.ne', List.getElem?_eq_none (by simp; omega),
            List.getElem?_eq_none (by omega)]
      · intro j
        rw [isOpenAt, isOpenAt]
        rcases Nat.lt_trichotomy j server.connections.length with hj | rfl | hj
        · rw [List.getElem?_append_left hj]
          simp [hj.ne]
        · simp [MqttConnection.started]
        · rw [List.getElem?_eq_none (by simp; omega), List.getElem?_eq_none (by omega)]
          simp [hj.ne']
  | connection k event =>
      simp only [perform] at h
      split at h
      · rename_i c hc
        split at h
        · rename_i c' actions hhandle
          cases MqttConnection.answer_of_handle hhandle with
          | quiet _ _ hsame hquiet hreason halone =>
              rcases performActions_quiet hquiet h with ⟨hcloses, hmanager, hwrites⟩
              refine .quiet k event c outputs after hc hreason halone ?_ hmanager hwrites
              exact ((closes_begin hc hsame).trans hcloses).congr fun _ => rfl
          | accepted connect he hclient hopen =>
              subst he
              exact outcome_of_accepted hc hclient hopen h
          | handedOver clientId packet authenticated he hclient hconnect hdisconnect =>
              subst he
              exact outcome_of_handedOver hc hclient hconnect hdisconnect h
          | closed _ reason more hsame hreason hquiet =>
              exact outcome_of_closed hc hsame hreason hquiet h
        · cases h
        · cases h
      · cases h
  | session event =>
      simp only [perform] at h
      split at h
      · rename_i hinternal
        rcases dispatch_eq_ok h with ⟨effects, hperform, rfl, hcloses⟩
        exact .session event effects after hinternal hperform hcloses
      · cases h
  | stopAll =>
      cases h
      refine .stoppedAll _ ⟨?_, ?_⟩ rfl
      · intro j
        rw [clientOf, clientOf, stopAll, List.getElem?_map]
        cases hc : server.connections[j]? with
        | none => rfl
        | some c => cases hopen : c.isOpen <;> simp [hopen]
      · intro j
        rw [isOpenAt, isOpenAt, stopAll, List.getElem?_map]
        cases hc : server.connections[j]? with
        | none => rfl
        | some c => cases hopen : c.isOpen <;> simp [hopen]

/-- What an event may make of the connections. -/
inductive Change (server : MqttServer) : ServerEvent → MqttServer → Prop
  | closes {event : ServerEvent} {after : MqttServer} (closed : ConnectionId → Bool)
      (h : server.Closes closed after) : Change server event after
  | accepted {after : MqttServer}
      (hclient : ∀ j, after.clientOf j =
        if j = server.connections.length then some none else server.clientOf j)
      (hopen : ∀ j, after.isOpenAt j =
        (decide (j = server.connections.length) || server.isOpenAt j)) :
      Change server .accepted after
  | connected {k : ConnectionId} {connect : Connect} {c : MqttConnection} {after : MqttServer}
      (hc : server.connections[k]? = some c) (hclientId : c.clientId = none)
      (hisOpen : c.isOpen = true)
      (hclient : ∀ j, after.clientOf j =
        if j = k then some (some connect.clientId) else server.clientOf j)
      (hopen : ∀ j, after.isOpenAt j = server.isOpenAt j) :
      Change server (.connection k (.received (.connect connect) true)) after

/-- Connections are accepted, become known or are closed. -/
theorem change_of_outcome {event : ServerEvent} (h : server.Outcome kept event outputs after) :
    server.Change event after := by
  cases h with
  | accepted _ hclient hopen hmanager => exact .accepted hclient hopen
  | quiet k event c _ _ hc hreason halone hcloses => exact .closes _ hcloses
  | connected k connect c _ _ hc hclientId hisOpen hperform hclient hopen =>
      exact .connected hc hclientId hisOpen hclient hopen
  | handedOver k packet authenticated c clientId event effects _ _ hc hclientId hconnect
      hdisconnect hevent hperform hcloses => exact .closes _ hcloses
  | closed k event c clientId reason effects _ _ hc hclientId hreason hperform hcloses =>
      exact .closes _ hcloses
  | closedUnknown k event c reason _ _ hc hclientId hreason hcloses => exact .closes _ hcloses
  | session event effects _ hinternal hperform hcloses => exact .closes _ hcloses
  | stoppedAll _ hcloses => exact .closes _ hcloses

/-- An event has the session manager process at most one event of its own. -/
theorem manager_of_outcome {event : ServerEvent} (h : server.Outcome kept event outputs after) :
    after.sessionManager = server.sessionManager ∨
      ∃ connections event effects, server.sessionManager.perform connections event =
        some (.ok (effects, after.sessionManager)) := by
  cases h with
  | accepted _ hclient hopen hmanager => exact Or.inl hmanager
  | quiet k event c _ _ hc hreason halone hcloses hmanager => exact Or.inl hmanager
  | connected k connect c _ _ hc hclientId hisOpen hperform => exact Or.inr ⟨_, _, _, hperform⟩
  | handedOver k packet authenticated c clientId event effects _ _ hc hclientId hconnect
      hdisconnect hevent hperform => exact Or.inr ⟨_, _, _, hperform⟩
  | closed k event c clientId reason effects _ _ hc hclientId hreason hperform =>
      exact Or.inr ⟨_, _, _, hperform⟩
  | closedUnknown k event c reason _ _ hc hclientId hreason hcloses hmanager =>
      exact Or.inl hmanager
  | session event effects _ hinternal hperform => exact Or.inr ⟨_, _, _, hperform⟩
  | stoppedAll _ hcloses hmanager => exact Or.inl hmanager

end Outcomes

/-- What a step does that does not fail. -/
theorem outcome_of_step {before : MqttServer} {e : (ConnectionId → Bool) × ServerEvent}
    {output : Except Fault (List Output)} {after : MqttServer}
    (h : machine.step (some before) e = some (output, some after)) :
    ∃ outputs, output = .ok outputs ∧ before.Outcome e.1 e.2 outputs after := by
  obtain ⟨outputs, hf, houtput⟩ := Machine.ofFallible_step_alive_iff.mp h
  exact ⟨outputs, houtput, outcome_of_perform hf⟩

/-- What every outcome preserves, given the steps so far, holds after a run. -/
theorem run_invariant {maxRetries : Nat} {steps : List ServerStep} {t : Option MqttServer}
    (inv : List ServerStep → MqttServer → Prop) (init : inv [] (create maxRetries))
    (preserved : ∀ pre server kept event outputs after,
      machine.Run (some (create maxRetries)) pre (some server) → inv pre server →
      server.Outcome kept event outputs after →
        inv (pre ++ [⟨some server, (kept, event), .ok outputs, some after⟩]) after)
    (h : machine.Run (some (create maxRetries)) steps t) {server : MqttServer}
    (ht : t = some server) : inv steps server := by
  subst ht
  refine h.alive_invariant (fun _ => rfl) (fun _ => True) inv init ?_ (fun _ _ => trivial)
  intro pre before e output after hrun hpre hstep _
  rcases outcome_of_step hstep with ⟨outputs, rfl, houtcome⟩
  exact preserved pre before e.1 e.2 outputs after hrun hpre houtcome

/-- The session manager of a server runs as it does on its own. -/
theorem sessionManager_run {maxRetries : Nat} {steps : List ServerStep} {server : MqttServer}
    (h : machine.Run (some (create maxRetries)) steps (some server)) :
    ∃ managerSteps, SessionManager.machine.Run (some (SessionManager.create maxRetries))
      managerSteps (some server.sessionManager) := by
  refine run_invariant (fun _ server => ∃ managerSteps, SessionManager.machine.Run
    (some (SessionManager.create maxRetries)) managerSteps (some server.sessionManager))
    ⟨[], Machine.Run.nil _⟩ ?_ h rfl
  rintro pre server kept event outputs after - ⟨managerSteps, hrun⟩ houtcome
  rcases manager_of_outcome houtcome with hsame | ⟨connections, managerEvent, effects, hperform⟩
  · rw [hsame]
    exact ⟨managerSteps, hrun⟩
  · have hstep : SessionManager.machine.step (some server.sessionManager)
        (connections, managerEvent) = some (.ok effects, some after.sessionManager) :=
      Machine.ofFallible_step_alive_iff.mpr ⟨effects, hperform, rfl⟩
    exact ⟨_, hrun.append (Machine.Run.single hstep)⟩

end MqttServer

end Server
end WallyIo
