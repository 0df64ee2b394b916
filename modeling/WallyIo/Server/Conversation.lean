import WallyIo.Dispatch.Replies
import WallyIo.Server.Authenticity

/-!
# Conversations

The server answers the packets of its clients.  Each packet that is owed an answer on an open
connection gets one answer there, at once; nothing else is answered, and the timers of the sessions
repeat answers only.  On each connection the conversation begins with a CONNACK.

Main results:

- Theorem {lit}`conversation_of_run`: in every run requests and answers correspond to each other
  one by one, in order.
- Theorem {lit}`answeredHere_of_run`: if clients are kept apart, a packet is answered on the
  connection where it has been received.
- Theorem {lit}`handshake_of_run`: on every connection a CONNACK accepts the client once, before
  anything is sent on behalf of a session.
-/

namespace WallyIo
namespace Server

open Protocol
open Library
open Connection
open Dispatch

/-! ## What is sent -/

/-- What an output sends in reply, and on which connection. -/
def Output.reply : Output → Option (ConnectionId × MqttPacket)
  | .effect e => SessionManager.reply e
  | .write k packet => some (k, packet)

/-- What some outputs send in reply, and on which connections. -/
def replies (outputs : List Output) : List (ConnectionId × MqttPacket) :=
  outputs.filterMap Output.reply

/-- The packet that an output sends on a connection, if the connection is open. -/
def Output.sentOn (k : ConnectionId) : Output → Option MqttPacket
  | .effect (.call _ j (.send packet)) => if j = k then some packet else none
  | .effect _ => none
  | .write j packet => if j = k then some packet else none

/-- The packets that some outputs send on a connection, if the connection is open. -/
def sentOn (k : ConnectionId) (outputs : List Output) : List MqttPacket :=
  outputs.filterMap (Output.sentOn k)

/-- The packet that an output writes on behalf of no session. -/
def Output.written : Output → Option (ConnectionId × MqttPacket)
  | .effect _ => none
  | .write k packet => some (k, packet)

section Sent

variable {k : ConnectionId} {outputs : List Output} {packet : MqttPacket}

theorem mem_sentOn_iff : packet ∈ sentOn k outputs ↔
    (∃ x, .effect (.call x k (.send packet)) ∈ outputs) ∨ .write k packet ∈ outputs := by
  rw [sentOn, List.mem_filterMap]
  constructor
  · rintro ⟨output, hmem, hsent⟩
    cases output with
    | write j packet' =>
        obtain ⟨rfl, hpacket⟩ := Option.ite_none_right_eq_some.mp hsent
        cases hpacket
        exact Or.inr hmem
    | effect effect =>
        cases effect with
        | publish p => cases hsent
        | call x j call =>
            cases call with
            | stop message => cases hsent
            | send packet' =>
                obtain ⟨rfl, hpacket⟩ := Option.ite_none_right_eq_some.mp hsent
                cases hpacket
                exact Or.inl ⟨x, hmem⟩
  · rintro (⟨x, hmem⟩ | hmem)
    · exact ⟨_, hmem, if_pos rfl⟩
    · exact ⟨_, hmem, if_pos rfl⟩

/-- What is sent is a PUBLISH of a session, or a reply. -/
theorem publish_or_reply_of_sentOn (h : packet ∈ sentOn k outputs) :
    (∃ x p, packet = .publish p ∧ .effect (.call x k (.send packet)) ∈ outputs) ∨
      (k, packet) ∈ replies outputs := by
  rcases mem_sentOn_iff.mp h with ⟨x, hmem⟩ | hmem
  · by_cases hreply : isReply packet = true
    · exact Or.inr (List.mem_filterMap.mpr ⟨_, hmem, if_pos hreply⟩)
    · left
      cases packet with
      | publish p => exact ⟨x, p, rfl, hmem⟩
      | publishAck ack => cases ack <;> exact absurd rfl hreply
      | connect | connack | subscribe | suback | unsubscribe | unsuback | pingreq | pingresp
      | disconnect => exact absurd rfl hreply
  · exact Or.inr (List.mem_filterMap.mpr ⟨_, hmem, rfl⟩)

/-- The session manager and the connections reply one after the other. -/
theorem replies_of_split {effects : List Effect} {writes : List Output}
    (hwrites : ∀ output ∈ writes, MqttServer.IsWrite k output) :
    replies (effects.map .effect ++ writes) =
      SessionManager.replies effects ++
        (effects.map Output.effect ++ writes).filterMap Output.written := by
  have heffects : (effects.map Output.effect).filterMap Output.written = [] := by
    rw [List.filterMap_map, List.filterMap_eq_nil_iff]
    exact fun _ _ => rfl
  have hsame : writes.filterMap Output.reply = writes.filterMap Output.written := by
    apply List.filterMap_congr
    intro output hmem
    obtain ⟨packet, rfl⟩ := hwrites output hmem
    rfl
  rw [replies, List.filterMap_append, List.filterMap_append, heffects, hsame,
    List.filterMap_map]
  rfl

end Sent

/-! ## One event -/

namespace MqttServer

variable {server after : MqttServer} {kept : ConnectionId → Bool} {outputs : List Output}
  {k : ConnectionId} {e : ConnectionEvent} {packet : MqttPacket} {authenticated : Bool}

/-- Which packets make a connection close. -/
theorem closing_packet {c : MqttConnection} {reason : DisconnectReason}
    (h : c.closeReason (.received packet authenticated) = some reason) :
    packet = .disconnect ∨ ∃ connect, packet = .connect connect ∧ c.clientId.isSome = true := by
  cases packet with
  | disconnect => exact Or.inl rfl
  | connect connect =>
      rw [MqttConnection.closeReason, Option.ite_none_right_eq_some] at h
      exact Or.inr ⟨connect, rfl, h.1⟩
  | connack | publish | publishAck | subscribe | suback | unsubscribe | unsuback | pingreq
  | pingresp => cases h

/-- A connection that closes writes nothing. -/
theorem ownAnswers_of_closeReason {c : MqttConnection} {reason : DisconnectReason}
    (h : c.closeReason e = some reason) : c.ownAnswers e = [] := by
  cases e with
  | received packet authenticated =>
      rcases closing_packet h with rfl | ⟨connect, rfl, hsome⟩
      · rfl
      · rw [MqttConnection.ownAnswers, if_pos hsome]
  | frameArrives | malformed | readFailed | written | connectionTimerElapses | connectionTimeout
  | connectionTimerAborted | keepAliveTimerElapses | keepAliveTimeout | keepAliveTimerAborted => rfl

/-- The packets that are sent on open connections. -/
def onOpen (server : MqttServer) (sent : List (ConnectionId × MqttPacket)) :
    List (ConnectionId × MqttPacket) :=
  sent.filter fun e => server.isOpenAt e.1

@[simp]
theorem onOpen_append (server : MqttServer) (xs ys : List (ConnectionId × MqttPacket)) :
    server.onOpen (xs ++ ys) = server.onOpen xs ++ server.onOpen ys :=
  List.filter_append ..

@[simp]
theorem onOpen_onOpen (server : MqttServer) (sent : List (ConnectionId × MqttPacket)) :
    server.onOpen (server.onOpen sent) = server.onOpen sent := by
  simp [onOpen]

/-- Nothing matters but which connections are open. -/
theorem onOpen_of_closes (h : server.Closes (fun _ => false) after)
    (sent : List (ConnectionId × MqttPacket)) : after.onOpen sent = server.onOpen sent := by
  apply List.filter_congr
  intro e _
  rw [h.isOpenAt, Bool.not_false, Bool.and_true]

/-- The replies that are carried out are those on open connections. -/
theorem replies_carriedOut (server : MqttServer) (outputs : List Output) :
    replies (server.carriedOut outputs) = server.onOpen (replies outputs) := by
  rw [replies, carriedOut, List.filterMap_filter, onOpen, replies, List.filter_filterMap]
  apply List.filterMap_congr
  intro output _
  cases output with
  | write k packet =>
      cases hopen : server.isOpenAt k <;>
        simp [Output.getsThrough, Output.reply, Option.filter_some, hopen]
  | effect effect =>
      cases effect with
      | publish p => rfl
      | call x k call =>
          cases call with
          | stop message => rfl
          | send packet =>
              cases hopen : server.isOpenAt k <;> cases hreply : isReply packet <;>
                simp [Output.getsThrough, Output.reply, SessionManager.reply, Option.filter_some,
                  hopen, hreply]

theorem written_writes (server : MqttServer) (k : ConnectionId) (packet : MqttPacket) :
    (server.writes k packet).filterMap Output.written = server.onOpen [(k, packet)] := by
  cases hopen : server.isOpenAt k <;> simp [writes, onOpen, Output.written, hopen]

/-- What the session manager does is written on its behalf. -/
theorem written_of_dispatch {managerEvent : SessionManager.Event}
    (h : server.dispatch kept managerEvent = some (.ok (outputs, after))) :
    outputs.filterMap Output.written = [] := by
  obtain ⟨effects, -, rfl, -⟩ := dispatch_eq_ok h
  rw [List.filterMap_map, List.filterMap_eq_nil_iff]
  exact fun _ _ => rfl

/-- An action that writes nothing. -/
theorem written_of_performAction {action : Action} (hnone : action.packet = none)
    (h : server.performAction kept k action = some (.ok (outputs, after))) :
    outputs.filterMap Output.written = [] := by
  cases action with
  | writePacket | writePacketAndCloseConnection => cases hnone
  | handlePacketReceived container =>
      simp only [performAction] at h
      split at h
      · exact written_of_dispatch h
      · cases h
  | clientDisconnectedUngracefully clientId reason => exact written_of_dispatch h
  | stop | readFrame =>
      cases h
      rfl

/-- Actions that write nothing. -/
theorem written_of_performActions {actions : List Action} (hnone : written actions = [])
    (h : performActions kept k actions server = some (.ok (outputs, after))) :
    outputs.filterMap Output.written = [] := by
  induction actions generalizing server outputs with
  | nil =>
      cases h
      rfl
  | cons action rest ih =>
      obtain ⟨first, next, more, hfirst, hrest, rfl⟩ := performActions_cons_eq_ok_iff.mp h
      have hnothing := List.filterMap_eq_nil_iff.mp hnone
      have hmore := ih (List.filterMap_eq_nil_iff.mpr fun a hmem =>
        hnothing a (List.mem_cons_of_mem _ hmem)) hrest
      rw [List.filterMap_append, hmore, List.append_nil]
      exact written_of_performAction (hnothing action List.mem_cons_self) hfirst

/-- Actions that leave the connections open write their packets on the connection, if it is open. -/
theorem written_of_quiet {actions : List Action}
    (hquiet : ∀ action ∈ actions, action.isQuiet = true)
    (h : performActions kept k actions server = some (.ok (outputs, after))) :
    outputs.filterMap Output.written =
      server.onOpen ((written actions).map fun packet => (k, packet)) := by
  induction actions generalizing server outputs with
  | nil =>
      cases h
      rfl
  | cons action rest ih =>
      obtain ⟨first, next, more, hfirst, hrest, rfl⟩ := performActions_cons_eq_ok_iff.mp h
      have haction := hquiet action List.mem_cons_self
      have hone : performActions kept k [action] server = some (.ok (first, next)) :=
        performActions_cons_eq_ok_iff.mpr ⟨first, next, [], hfirst, rfl, (List.append_nil _).symm⟩
      have hcloses := (performActions_quiet (fun a hmem => List.mem_singleton.mp hmem ▸ haction)
        hone).1
      have hmore := ih (fun a hmem => hquiet a (List.mem_cons_of_mem _ hmem)) hrest
      have hwritten : first.filterMap Output.written =
          server.onOpen ((written [action]).map fun packet => (k, packet)) := by
        cases action with
        | writePacket | writePacketAndCloseConnection =>
            cases hfirst
            exact written_writes server k _
        | readFrame =>
            cases hfirst
            rfl
        | handlePacketReceived | clientDisconnectedUngracefully | stop => cases haction
      rw [List.filterMap_append, hwritten, hmore, onOpen_of_closes hcloses, ← onOpen_append,
        ← List.map_append, ← written_append, List.singleton_append]

/-- What a connection writes in an event. -/
theorem written_of_perform (h : server.perform kept (.connection k e) =
    some (.ok (outputs, after))) :
    ∃ c, server.connections[k]? = some c ∧ outputs.filterMap Output.written =
      server.onOpen ((c.ownAnswers e).map fun packet => (k, packet)) := by
  simp only [perform] at h
  split at h
  · rename_i c hc
    split at h
    · rename_i c' actions hhandle
      refine ⟨c, hc, ?_⟩
      have hwritten := MqttConnection.written_of_handle hhandle
      cases MqttConnection.answer_of_handle hhandle with
      | quiet _ _ hsame hquiet =>
          rw [written_of_quiet hquiet h, onOpen_of_closes (closes_begin hc hsame), hwritten]
      | accepted connect he hclient hopen =>
          obtain ⟨first, next, more, hfirst, hrest, rfl⟩ := performActions_cons_eq_ok_iff.mp h
          obtain ⟨rfl, hnext, -⟩ := performAction_connect hfirst
          have hstart : (server.modify k fun _ => c.onFrameRead.connected connect).isOpenAt =
              server.isOpenAt := by
            funext j
            rw [isOpenAt, isOpenAt, modify, List.getElem?_modify]
            by_cases hj : k = j
            · subst hj
              simp [hc]
            · simp [hj]
          rw [List.nil_append, written_of_quiet (by simp [Action.isQuiet]) hrest,
            onOpen_of_closes hnext, onOpen, hstart, ← onOpen, ← hwritten]
          rfl
      | handedOver =>
          rw [written_of_performActions rfl h, ← hwritten]
          rfl
      | closed _ reason more hsame hreason hquiet =>
          rw [ownAnswers_of_closeReason hreason] at hwritten
          rw [written_of_performActions hwritten h, ownAnswers_of_closeReason hreason]
          rfl
    · cases h
    · cases h
  · cases h

/-- On which connection an answer is owed to a packet that has been received on a connection.  A
connection answers for itself until its client is known, and sessions answer for their
clients. -/
def owesOn (server : MqttServer) (kept : ConnectionId → Bool) (k : ConnectionId) :
    MqttPacket → Option ConnectionId
  | .connect _ => if server.clientOf k = some none then some k else none
  | .pingreq => some k
  | packet =>
      match server.clientOf k with
      | some (some x) => server.sessionManager.owesOn (server.viewFrom kept k x) x packet
      | _ => none

/-- On which connection an answer is owed to a packet and can be given. -/
def owedOn (server : MqttServer) (kept : ConnectionId → Bool) (k : ConnectionId)
    (packet : MqttPacket) : Option ConnectionId :=
  (server.owesOn kept k packet).filter server.isOpenAt

/-- A closed connection is not replied on. -/
theorem repliedOn_onOpen (server : MqttServer) {owed : Option ConnectionId}
    {answers : List (ConnectionId × MqttPacket)} (h : RepliedOn packet owed answers) :
    RepliedOn packet (owed.filter server.isOpenAt) (server.onOpen answers) := by
  cases h with
  | nothing => exact .nothing
  | answer j answer hanswer =>
      rw [Option.filter_some, onOpen, List.filter_singleton]
      cases server.isOpenAt j with
      | true => exact .answer j answer hanswer
      | false => exact .nothing

/-- A session answers for its client. -/
theorem owesOn_of_clientOf {x : Bytes} (hclient : server.clientOf k = some (some x))
    (hconnect : packet.type ≠ .connect) (hpingreq : packet.type ≠ .pingreq) :
    server.owesOn kept k packet =
      server.sessionManager.owesOn (server.viewFrom kept k x) x packet := by
  cases packet with
  | connect connect => exact absurd rfl hconnect
  | pingreq => exact absurd rfl hpingreq
  | connack | publish | publishAck | subscribe | suback | unsubscribe | unsuback | pingresp
  | disconnect => simp only [owesOn, hclient]

/-- Nobody answers a DISCONNECT. -/
theorem owesOn_disconnect : server.owesOn kept k .disconnect = none := by
  simp only [owesOn]
  split
  · rename_i x hclient
    cases hentry : server.sessionManager.sessions.lookup x with
    | none => exact SessionManager.owesOn_of_none hentry
    | some entry =>
        have howes : entry.session.owes .disconnect = false := rfl
        rw [SessionManager.owesOn_of_lookup hentry, howes, Bool.and_false]
        rfl
  · rfl

/-- Nothing is owed to a packet that makes a connection close. -/
theorem owesOn_of_closeReason {c : MqttConnection} {reason : DisconnectReason}
    (hc : server.connections[k]? = some c)
    (h : c.closeReason (.received packet authenticated) = some reason) :
    server.owesOn kept k packet = none := by
  rcases closing_packet h with rfl | ⟨connect, rfl, hsome⟩
  · exact owesOn_disconnect
  · rw [owesOn, clientOf_eq hc, if_neg]
    intro hnone
    rw [Option.some.inj hnone] at hsome
    cases hsome

/-- What goes out in an event of a connection: what its session replies, and what it writes
itself, on connections that are open. -/
theorem replies_of_perform
    (hperform : server.perform kept (.connection k e) = some (.ok (outputs, after)))
    (effects : List Effect) {writes : List Output} (heq : outputs = effects.map .effect ++ writes)
    (hwrites : ∀ output ∈ writes, IsWrite k output) {c : MqttConnection}
    (hc : server.connections[k]? = some c) :
    replies (server.carriedOut outputs) = server.onOpen (SessionManager.replies effects ++
      (c.ownAnswers e).map fun packet => (k, packet)) := by
  obtain ⟨c', hc', hwritten⟩ := written_of_perform hperform
  cases hc.symm.trans hc'
  rw [replies_carriedOut, heq, replies_of_split hwrites, onOpen_append, onOpen_append, ← heq,
    hwritten, onOpen_onOpen]

/-- A connection that closes does not have its session reply. -/
theorem replies_disconnectEvent {clientId : Bytes} {reason : DisconnectReason}
    {connections : Connections} {effects : List Effect} {m' : SessionManager}
    (hwell : server.sessionManager.TablesWellFormed)
    (h : server.sessionManager.perform connections (disconnectEvent clientId reason) =
      some (.ok (effects, m'))) : SessionManager.replies effects = [] := by
  have hrequest : (disconnectEvent clientId reason).request = none := by
    rw [disconnectEvent]
    split <;> rfl
  rcases SessionManager.repeated_of_perform hwell hrequest h with
    hnone | ⟨x, entry, packet, -, -, hrepeats, -⟩
  · exact hnone
  · rw [disconnectEvent] at hrepeats
    split at hrepeats <;> cases hrepeats

/-- The session manager is asked for the answers that connections do not give themselves. -/
theorem request_of_handedOver {clientId : Bytes} {event : SessionManager.Event}
    (hconnect : packet.type ≠ .connect) (hdisconnect : packet.type ≠ .disconnect)
    (c : MqttConnection) (authenticated : Bool)
    (h : SessionManager.handlePacketReceived ⟨clientId, packet, .notADisconnect⟩ k = .ok event) :
    event.client = some clientId ∧ event.request = some packet ∧
      c.ownAnswers (.received packet authenticated) = [] ∧ packet.type ≠ .pingreq := by
  cases packet with
  | connect connect => exact absurd rfl hconnect
  | disconnect => exact absurd rfl hdisconnect
  | publishAck ack =>
      cases h
      refine ⟨rfl, rfl, rfl, ?_⟩
      cases ack <;> simp [MqttPacket.type, PublishAck.type]
  | publish | subscribe | unsubscribe =>
      cases h
      exact ⟨rfl, rfl, rfl, by simp [MqttPacket.type]⟩
  | connack | suback | unsuback | pingreq | pingresp => cases h

/-- A packet is answered exactly if an answer is owed to it and can be given. -/
theorem replied_of_received (hwell : server.sessionManager.TablesWellFormed)
    (h : server.perform kept (.connection k (.received packet authenticated)) =
      some (.ok (outputs, after))) :
    RepliedOn packet (server.owedOn kept k packet) (replies (server.carriedOut outputs)) := by
  cases outcome_of_perform h with
  | quiet _ _ c _ _ hc hreason halone hcloses hmanager hwrites =>
      rw [replies_of_perform h [] rfl hwrites hc]
      refine server.repliedOn_onOpen ?_
      rcases halone packet authenticated rfl with ⟨htype, rfl⟩ | htype
      · cases packet with
        | connect connect =>
            have hnone : c.clientId = none := by
              rw [MqttConnection.closeReason, ite_eq_right_iff] at hreason
              simpa using hreason
            rw [owesOn, clientOf_eq hc, hnone, if_pos rfl, MqttConnection.ownAnswers, hnone]
            exact .answer k _ (.connack connect _)
        | publishAck ack => cases ack <;> cases htype
        | connack | publish | subscribe | suback | unsubscribe | unsuback | pingreq | pingresp
        | disconnect => cases htype
      · cases packet with
        | pingreq => exact .answer k _ .pingresp
        | publishAck ack => cases ack <;> cases htype
        | connect | connack | publish | subscribe | suback | unsubscribe | unsuback | pingresp
        | disconnect => cases htype
  | connected _ connect c _ _ hc hclientId hisOpen hperform hclient hopen hwrites =>
      rw [replies_of_perform h [] rfl hwrites hc]
      refine server.repliedOn_onOpen ?_
      rw [owesOn, clientOf_eq hc, hclientId, if_pos rfl, MqttConnection.ownAnswers, hclientId]
      exact .answer k _ (.connack connect _)
  | handedOver _ _ _ c clientId event effects writes _ hc hclientId hconnect hdisconnect hevent
      hperform hcloses hwrites =>
      obtain ⟨hclient, hrequest, hown, hpingreq⟩ := request_of_handedOver hconnect hdisconnect c
        authenticated hevent
      rw [replies_of_perform h effects rfl hwrites hc, hown, List.map_nil, List.append_nil]
      refine server.repliedOn_onOpen ?_
      rw [owesOn_of_clientOf ((clientOf_eq hc).trans (congrArg some hclientId)) hconnect hpingreq]
      exact SessionManager.replied_of_perform hwell hclient hrequest hperform
  | closed _ _ c clientId reason effects writes _ hc hclientId hreason hperform hcloses hwrites =>
      rw [replies_of_perform h effects rfl hwrites hc, ownAnswers_of_closeReason hreason,
        replies_disconnectEvent hwell hperform, owedOn, owesOn_of_closeReason hc hreason]
      exact .nothing
  | closedUnknown _ _ c reason _ _ hc hclientId hreason hcloses hmanager hwrites =>
      rw [replies_of_perform h [] rfl hwrites hc, ownAnswers_of_closeReason hreason, owedOn,
        owesOn_of_closeReason hc hreason]
      exact .nothing

/-- The packet that has been received in a step, and the connection on which it is owed an answer
that can be given. -/
def request : ServerStep → Option (ConnectionId × MqttPacket)
  | ⟨some server, (kept, .connection k (.received packet _)), .ok _, _⟩ =>
      (server.owedOn kept k packet).map fun j => (j, packet)
  | _ => none

/-- What has been replied in a step, unless a session has acted by itself. -/
def answers : ServerStep → List (ConnectionId × MqttPacket)
  | ⟨_, (_, .session _), _, _⟩ => []
  | ⟨some server, _, .ok outputs, _⟩ => replies (server.carriedOut outputs)
  | _ => []

/-- A packet is answered on the connection where an answer is owed. -/
def Answers (request answer : ConnectionId × MqttPacket) : Prop :=
  answer.1 = request.1 ∧ AnswerTo request.2 answer.2

variable {steps : List ServerStep} {maxRetries : Nat}

/-- In every state of the server that is reached the publications wait. -/
theorem tablesWellFormed_of_serverRun
    (h : machine.Run (some (create maxRetries)) steps (some server)) :
    server.sessionManager.TablesWellFormed := by
  obtain ⟨managerSteps, hrun⟩ := sessionManager_run h
  exact SessionManager.tablesWellFormed_of_run hrun

/-- A client subscribes, publishes a packet and completes the publication. -/
def talkRun : Option (List ServerStep × Option MqttServer) :=
  machine.exec (some (create 3))
    ([(fun _ => false, .accepted)] ++
      receives 0 .pingreq ++
      receives 0 (.connect (SessionManager.sampleConnect [0x78])) ++
      receives 0 (.subscribe ⟨6, 1, [⟨[0x61], .atMostOnce, SessionManager.wellFormed_letter⟩]⟩) ++
      receives 0 (.publish (.create false .exactlyOnce false [0x61] 7 [0x01])) ++
      receives 0 (.publishAck (.pubrel 7)))

theorem talkRun_isSome : talkRun.isSome = true := rfl

/-- The session of a client answers on the connection that the packet has come from, if this is the
connection of the session: with one packet if an answer is owed and the connection is open, and else
not at all. -/
theorem answeredHere_of_run {t : Option MqttServer} {pre post : List ServerStep}
    {step : ServerStep} {x : Bytes}
    (h : machine.Run (some (create maxRetries)) steps t) (hsteps : steps = pre ++ step :: post)
    (hbefore : step.before = some server)
    (hevent : step.event = (kept, .connection k (.received packet authenticated)))
    (houtput : step.output = .ok outputs) (hclient : server.clientOf k = some (some x))
    (hsession : server.sessionConnection x = some k) (hconnect : packet.type ≠ .connect)
    (hpingreq : packet.type ≠ .pingreq) :
    ∃ entry answers, server.sessionManager.sessions.lookup x = some entry ∧
      replies (server.carriedOut outputs) = answers.map (fun answer => (k, answer)) ∧
        Replied packet (server.isOpenAt k && entry.session.owes packet) answers := by
  obtain ⟨hpre, hstep, -⟩ := h.split hsteps
  rw [hbefore] at hpre
  rw [hbefore, hevent, houtput] at hstep
  rcases Machine.ofFallible_step_some hstep with
    ⟨failure, -, ho, -⟩ | ⟨outputs', after, hperform, ho, -⟩
  · cases ho
  · cases ho
    have hreplied := replied_of_received (tablesWellFormed_of_serverRun hpre) hperform
    rw [sessionConnection_eq, profile, SessionManager.profile, Option.map_map,
      Option.map_eq_some_iff] at hsession
    obtain ⟨entry, hentry, hk⟩ := hsession
    have hhere : entry.connection = k := hk
    have hconnected : SessionManager.connected (server.viewFrom kept k x) entry = true := by
      rw [SessionManager.connected, hhere, viewFrom, if_pos rfl, Option.isSome_some]
    have howed : server.owedOn kept k packet =
        if server.isOpenAt k && entry.session.owes packet then some k else none := by
      rw [owedOn, owesOn_of_clientOf hclient hconnect hpingreq,
        SessionManager.owesOn_of_lookup hentry, hconnected, Bool.true_and, hhere]
      cases hopen : server.isOpenAt k <;> cases entry.session.owes packet <;>
        simp [Option.filter_some, hopen]
    rw [howed] at hreplied
    generalize replies (server.carriedOut outputs) = sent at hreplied
    cases howes : server.isOpenAt k && entry.session.owes packet with
    | true =>
        rw [howes, if_pos rfl] at hreplied
        cases hreplied with
        | answer _ answer hanswer =>
            exact ⟨entry, [answer], hentry, rfl, howes ▸ .answer _ hanswer⟩
    | false =>
        rw [howes, if_neg Bool.false_ne_true] at hreplied
        cases hreplied
        exact ⟨entry, [], hentry, rfl, howes ▸ .nothing⟩

/-- The PUBLISH of the client above is answered by a PUBREC. -/
theorem answeredHere_of_run_talk : ∃ (server : MqttServer) (outputs : List Output)
    (entry : SessionEntry),
      replies (server.carriedOut outputs) = [(0, .publishAck (.pubrec 7))] ∧
        Replied (.publish (.create false .exactlyOnce false [0x61] 7 [0x01]))
          (server.isOpenAt 0 &&
            entry.session.owes (.publish (.create false .exactlyOnce false [0x61] 7 [0x01])))
          [.publishAck (.pubrec 7)] := by
  have hrun := Machine.run_exec (Option.some_get talkRun_isSome).symm
  have hstep : ∃ (pre post : List ServerStep) (step : ServerStep) (server : MqttServer)
      (outputs : List Output), (talkRun.get talkRun_isSome).1 = pre ++ step :: post ∧
      step.before = some server ∧ step.event = (fun _ => false, .connection 0 (.received
        (.publish (.create false .exactlyOnce false [0x61] 7 [0x01])) true)) ∧
      step.output = .ok outputs ∧ server.clientOf 0 = some (some [0x78]) ∧
        server.sessionConnection [0x78] = some 0 ∧
        replies (server.carriedOut outputs) = [(0, .publishAck (.pubrec 7))] :=
    ⟨(talkRun.get talkRun_isSome).1.take 8, (talkRun.get talkRun_isSome).1.drop 9, _, _, _,
      rfl, rfl, rfl, rfl, rfl, rfl, rfl⟩
  obtain ⟨pre, post, step, server, outputs, hsteps, hbefore, hevent, houtput, hclient, hsession,
    hsent⟩ := hstep
  obtain ⟨entry, answers, -, hreplies, hreplied⟩ := answeredHere_of_run hrun hsteps hbefore hevent
    houtput hclient hsession (by simp [MqttPacket.type]) (by simp [MqttPacket.type])
  have hanswers : answers = [.publishAck (.pubrec 7)] := by
    rw [hsent] at hreplies
    exact List.map_injective_iff.mpr (fun _ _ heq => (Prod.mk.inj heq).2) hreplies.symm
  exact ⟨server, outputs, entry, hsent, hanswers ▸ hreplied⟩

/-! ## The beginning of a conversation -/

/-- What is sent to a client that is not known. -/
def IsRefusal (packet : MqttPacket) : Prop :=
  packet = .pingresp ∨ packet = .connack ⟨false, .badUsernameOrPassword⟩

/-- What has been sent on a connection, given its client. -/
inductive Handshake : Option (Option Bytes) → List MqttPacket → Prop
  | unknown (client : Option (Option Bytes)) (packets : List MqttPacket)
      (hclient : ∀ x, client ≠ some (some x)) (h : ∀ packet ∈ packets, IsRefusal packet) :
      Handshake client packets
  /-- A single CONNACK accepts the client. -/
  | accepted (x : Bytes) (before after : List MqttPacket)
      (hbefore : ∀ packet ∈ before, IsRefusal packet)
      (hafter : ∀ packet ∈ after, packet.type ≠ .connack) :
      Handshake (some (some x)) (before ++ .connack ⟨false, .connectionAccepted⟩ :: after)

/-- What is sent on a connection in a step, if the connection is open. -/
def sentIn (k : ConnectionId) (step : ServerStep) : List MqttPacket :=
  match step.output with
  | .ok outputs => sentOn k outputs
  | .error _ => []

/-- Without a session, a connection sends what it writes itself. -/
theorem sentOn_of_no_call (hno : ∀ x call, .effect (.call x k call) ∉ outputs) :
    sentOn k outputs = (outputs.filterMap Output.written).filterMap fun sent =>
      if sent.1 = k then some sent.2 else none := by
  rw [sentOn, List.filterMap_filterMap]
  apply List.filterMap_congr
  intro output hmem
  cases output with
  | write j packet => rfl
  | effect effect =>
      cases effect with
      | publish p => rfl
      | call x j call =>
          have hj : j ≠ k := by
            rintro rfl
            exact hno x call hmem
          cases call with
          | stop message => rfl
          | send packet => exact if_neg hj

/-- A session sends no CONNACK. -/
theorem not_connack_of_call (hwell : server.sessionManager.TablesWellFormed) {event : ServerEvent}
    (h : server.Outcome kept event outputs after) {x : Bytes}
    (hmem : .effect (.call x k (.send packet)) ∈ outputs) : packet.type ≠ .connack := by
  rcases exists_perform_of_outcome h with
    ⟨-, hnone⟩ | ⟨connections, managerEvent, effects, hperform, heffects, -⟩
  · exact absurd hmem (hnone _)
  · exact SessionManager.not_connack_of_perform hwell hperform (heffects _ hmem)

/-- What a connection writes. -/
theorem write_of_perform {event : ServerEvent} {j : ConnectionId}
    (h : server.perform kept event = some (.ok (outputs, after)))
    (hmem : (j, packet) ∈ outputs.filterMap Output.written) :
    ∃ e c, event = .connection j e ∧ server.connections[j]? = some c ∧ packet ∈ c.ownAnswers e := by
  cases event with
  | connection k e =>
      obtain ⟨c, hc, hwritten⟩ := written_of_perform h
      rw [hwritten] at hmem
      obtain ⟨packet', hpacket, heq⟩ := List.mem_map.mp (List.mem_filter.mp hmem).1
      cases heq
      exact ⟨e, c, rfl, hc, hpacket⟩
  | accepted | stopAll =>
      cases h
      cases hmem
  | session event =>
      cases outcome_of_perform h with
      | session _ effects _ hinternal hperform hcloses =>
          obtain ⟨output, houtput, hwritten⟩ := List.mem_filterMap.mp hmem
          obtain ⟨effect, -, rfl⟩ := List.mem_map.mp houtput
          cases hwritten

/-- What a connection answers by itself. -/
theorem mem_ownAnswers {c : MqttConnection} (h : packet ∈ c.ownAnswers e) :
    packet = .pingresp ∨ c.clientId = none ∧ ∃ connect authenticated,
      e = .received (.connect connect) authenticated ∧ packet = .connack ⟨false,
        if authenticated then .connectionAccepted else .badUsernameOrPassword⟩ := by
  cases e with
  | received request authenticated =>
      cases request with
      | connect connect =>
          rw [MqttConnection.ownAnswers] at h
          cases hclient : c.clientId with
          | some clientId =>
              rw [hclient] at h
              cases h
          | none =>
              rw [hclient] at h
              exact Or.inr ⟨rfl, connect, authenticated, rfl, List.mem_singleton.mp h⟩
      | pingreq => exact Or.inl (List.mem_singleton.mp h)
      | connack | publish | publishAck | subscribe | suback | unsubscribe | unsuback | pingresp
      | disconnect => cases h
  | frameArrives | malformed | readFailed | written | connectionTimerElapses | connectionTimeout
  | connectionTimerAborted | keepAliveTimerElapses | keepAliveTimeout | keepAliveTimerAborted =>
      cases h

/-- A known client is sent no CONNACK. -/
theorem not_connack_of_sentOn {event : ServerEvent} {x : Bytes}
    (hwell : server.sessionManager.TablesWellFormed)
    (h : server.perform kept event = some (.ok (outputs, after)))
    (hclient : server.clientOf k = some (some x)) (hmem : packet ∈ sentOn k outputs) :
    packet.type ≠ .connack := by
  rcases mem_sentOn_iff.mp hmem with ⟨y, hcall⟩ | hwrite
  · exact not_connack_of_call hwell (outcome_of_perform h) hcall
  · obtain ⟨e, c, -, hc, hown⟩ := write_of_perform h (List.mem_filterMap.mpr ⟨_, hwrite, rfl⟩)
    rcases mem_ownAnswers hown with rfl | ⟨hnone, -⟩
    · simp [MqttPacket.type]
    · rw [clientOf_eq hc, hnone] at hclient
      cases hclient

/-- A client that stays unknown is sent nothing but refusals. -/
theorem refusal_of_sentOn {event : ServerEvent}
    (hrun : machine.Run (some (create maxRetries)) steps (some server))
    (h : server.perform kept event = some (.ok (outputs, after)))
    (hclient : ∀ x, server.clientOf k ≠ some (some x))
    (hafter : ∀ x, after.clientOf k ≠ some (some x)) (hmem : packet ∈ sentOn k outputs) :
    IsRefusal packet := by
  have houtcome := outcome_of_perform h
  rcases mem_sentOn_iff.mp hmem with ⟨y, hcall⟩ | hwrite
  · obtain ⟨connect, haccepted, -⟩ := acceptedOn_of_call hrun houtcome hcall
    exact absurd (clientOf_of_acceptedOn hrun haccepted) (hclient _)
  · obtain ⟨e, c, rfl, hc, hown⟩ := write_of_perform h (List.mem_filterMap.mpr ⟨_, hwrite, rfl⟩)
    rcases mem_ownAnswers hown with rfl | ⟨hnone, connect, authenticated, rfl, rfl⟩
    · exact Or.inl rfl
    · cases authenticated with
      | false => exact Or.inr rfl
      | true => exact absurd (outcome_of_connects hc hnone houtcome).2.1 (hafter _)

/-- A client that becomes known is sent a CONNACK, and nothing else in this step. -/
theorem sentOn_of_connects {connect : Connect} {c : MqttConnection}
    (hrun : machine.Run (some (create maxRetries)) steps (some server))
    (h : server.perform kept (.connection k (.received (.connect connect) true)) =
      some (.ok (outputs, after)))
    (hc : server.connections[k]? = some c) (hclientId : c.clientId = none)
    (hisOpen : c.isOpen = true) :
    sentOn k outputs = [.connack ⟨false, .connectionAccepted⟩] := by
  have hno : ∀ x call, .effect (.call x k call) ∉ outputs := by
    intro x call hcall
    obtain ⟨connect', haccepted, -⟩ := acceptedOn_of_call hrun (outcome_of_perform h) hcall
    have hknown := clientOf_of_acceptedOn hrun haccepted
    rw [clientOf_eq hc, hclientId] at hknown
    cases hknown
  obtain ⟨c', hc', hwritten⟩ := written_of_perform h
  cases hc.symm.trans hc'
  have hopen : server.isOpenAt k = true := by
    rw [isOpenAt, hc]
    exact hisOpen
  rw [sentOn_of_no_call hno, hwritten, MqttConnection.ownAnswers, hclientId]
  simp [onOpen, hopen]

/-- More is sent. -/
theorem Handshake.step {event : ServerEvent} {packets : List MqttPacket}
    (hrun : machine.Run (some (create maxRetries)) steps (some server))
    (h : server.perform kept event = some (.ok (outputs, after)))
    (hpackets : Handshake (server.clientOf k) packets) :
    Handshake (after.clientOf k) (packets ++ sentOn k outputs) := by
  have houtcome := outcome_of_perform h
  generalize hbefore : server.clientOf k = client at hpackets
  cases hpackets with
  | accepted x before more hrefusals hmore =>
      rw [clientOf_of_outcome houtcome hbefore, List.append_assoc, List.cons_append]
      refine .accepted x before _ hrefusals ?_
      intro packet hmem
      rcases List.mem_append.mp hmem with hmem | hmem
      · exact hmore packet hmem
      · exact not_connack_of_sentOn (tablesWellFormed_of_serverRun hrun) h hbefore hmem
  | unknown _ _ hclient hrefusals =>
      rw [← hbefore] at hclient
      by_cases hknown : ∃ x, after.clientOf k = some (some x)
      · obtain ⟨x, hx⟩ := hknown
        rcases connects_of_outcome houtcome hx with
          hsame | ⟨connect, c, rfl, hc, hclientId, hisOpen, rfl⟩
        · exact absurd hsame (hclient x)
        · rw [hx, sentOn_of_connects hrun h hc hclientId hisOpen]
          exact .accepted _ packets [] hrefusals (fun _ hmem => absurd hmem List.not_mem_nil)
      · have hafter : ∀ x, after.clientOf k ≠ some (some x) := fun x hx => hknown ⟨x, hx⟩
        refine .unknown _ _ hafter ?_
        intro packet hmem
        rcases List.mem_append.mp hmem with hmem | hmem
        · exact hrefusals packet hmem
        · exact refusal_of_sentOn hrun h hclient hafter hmem

/-- On every connection a CONNACK accepts the client once.  Before, the client is sent a PINGRESP or
a refusal at most, and afterwards it is sent no other CONNACK. -/
theorem handshake_of_run (h : machine.Run (some (create maxRetries)) steps (some server))
    (k : ConnectionId) : Handshake (server.clientOf k) (steps.flatMap (sentIn k)) := by
  refine h.alive_invariant (fun _ => rfl) (fun _ => True)
    (fun steps server => Handshake (server.clientOf k) (steps.flatMap (sentIn k))) ?_ ?_
    (fun _ _ => trivial)
  · exact .unknown _ [] (fun x hx => by cases hx) (fun _ hmem => absurd hmem List.not_mem_nil)
  · intro pre server e o after hpre hhandshake hstep _
    obtain ⟨outputs, hperform, rfl⟩ := Machine.ofFallible_step_alive_iff.mp hstep
    rw [List.flatMap_append, List.flatMap_singleton]
    exact hhandshake.step hpre hperform

/-- A client is accepted after a PINGREQ. -/
theorem handshake_of_run_talk : ∃ steps server,
    machine.Run (some (create 3)) steps (some server) ∧ server.clientOf 0 = some (some [0x78]) ∧
      Handshake (server.clientOf 0) (steps.flatMap (sentIn 0)) := by
  have hlast : ∃ server, (talkRun.get talkRun_isSome).2 = some server ∧
      server.clientOf 0 = some (some [0x78]) := ⟨_, rfl, rfl⟩
  obtain ⟨server, hserver, hclient⟩ := hlast
  have hrun : machine.Run (some (create 3)) (talkRun.get talkRun_isSome).1
      (talkRun.get talkRun_isSome).2 := Machine.run_exec (Option.some_get talkRun_isSome).symm
  rw [hserver] at hrun
  exact ⟨_, server, hrun, hclient, handshake_of_run hrun 0⟩

end MqttServer

end Server
end WallyIo
