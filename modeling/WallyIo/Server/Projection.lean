import WallyIo.Connection.Supervision
import WallyIo.Dispatch.FreshSessions
import WallyIo.Server.MqttServer

/-!
# The connections of a server

A server runs all of its connections.  Whatever the order in which it does so, each of them
lives as a single connection does whose environment calls it now and then: what holds in all
runs of a connection holds of all connections of a server.

Main results:

- Theorem {lit}`lives_of_run`: the part of a run that concerns a connection is a run of this
  connection.
- Theorem {lit}`connections_supervised`: every connection is supervised at any time.
- Theorem {lit}`closed_connections_drain`: a closed connection handles as many events as it has
  handlers outstanding, and its object lives on after that only if somebody else refers to it.
- Theorem {lit}`timeouts_justified`: a client is given up only after a wait in the course of which
  no read operation of its connection has ended, or no CONNECT of it has been accepted.
-/

namespace WallyIo
namespace Server

open Protocol
open Library
open Connection
open Dispatch

/-! ## Lives of a connection -/

/-- A connection handles a sequence of events, and its environment may call it in between. -/
def Lives (c : MqttConnection) (events : List ConnectionEvent) (c' : MqttConnection) : Prop :=
  ∃ steps, connectionMachine.Run (some c) steps (some c') ∧ eventsOf steps = events

variable {c c' c'' : MqttConnection} {events events' : List ConnectionEvent}

theorem Lives.refl (c : MqttConnection) : Lives c [] c := ⟨[], .nil _, rfl⟩

theorem Lives.trans (h : Lives c events c') (h' : Lives c' events' c'') :
    Lives c (events ++ events') c'' := by
  obtain ⟨steps, hrun, rfl⟩ := h
  obtain ⟨steps', hrun', rfl⟩ := h'
  exact ⟨steps ++ steps', hrun.append hrun', eventsOf_append _ _⟩

/-- A call of the environment. -/
theorem lives_applyCall (c : MqttConnection) (call : SenderCall) :
    Lives c [] (c.applyCall call) := by
  have hstep : connectionMachine.step (some c) (.call call) =
      some (.ok [], some (c.applyCall call)) := rfl
  exact ⟨_, Machine.Run.single hstep, rfl⟩

/-- An event. -/
theorem lives_event {event : ConnectionEvent} {actions : List Action}
    (h : c.handle event = some (.ok (c', actions))) (calls : List SenderCall) :
    Lives c [event] (actions.foldl (MqttConnection.perform calls) c') := by
  have hreact : c.react (.event event calls) =
      some (.ok (actions, actions.foldl (MqttConnection.perform calls) c')) := by
    rw [MqttConnection.react, h]
    rfl
  have hstep := Machine.ofFallible_step_alive_iff.mpr ⟨_, hreact, rfl⟩
  exact ⟨_, Machine.Run.single hstep, rfl⟩

/-! ## What the server does to a connection -/

/-- The event of a connection that an event of the server consists of, if it is one. -/
def eventAt (k : ConnectionId) : ServerEvent → Option ConnectionEvent
  | .connection j event => if j = k then some event else none
  | _ => none

/-- The events of a connection in a run, in order. -/
def eventsAt (k : ConnectionId) (steps : List ServerStep) : List ConnectionEvent :=
  steps.filterMap fun x => eventAt k x.event.2

/-- What a sequence of effects does to a connection. -/
def callsOn (k : ConnectionId) (effects : List Effect) : List SenderCall :=
  effects.filterMap fun
    | .call _ j call => if j = k then some call else none
    | .publish _ => none

namespace MqttServer

variable {server after : MqttServer} {kept : ConnectionId → Bool} {outputs : List Output}
  {k : ConnectionId}

/-- A connection; one that has not been accepted yet is ready to start. -/
def connectionAt (server : MqttServer) (k : ConnectionId) : MqttConnection :=
  server.connections[k]?.getD .started

theorem connectionAt_of_some (h : server.connections[k]? = some c) : server.connectionAt k = c := by
  rw [connectionAt, h, Option.getD_some]

/-- A connection that is changed. -/
theorem connections_modify_self (f : MqttConnection → MqttConnection) :
    (server.modify k f).connections[k]? = server.connections[k]?.map f :=
  List.getElem?_modify_eq f k server.connections

/-- A change of one connection leaves the others as they are. -/
theorem connections_modify_of_ne {j : ConnectionId} (hj : j ≠ k)
    (f : MqttConnection → MqttConnection) :
    (server.modify j f).connections[k]? = server.connections[k]? :=
  List.getElem?_modify_ne f server.connections hj

/-- What the session manager does to a connection. -/
theorem connections_foldl_applyEffect (effects : List Effect) :
    (effects.foldl applyEffect server).connections[k]? = server.connections[k]?.map fun c =>
      (callsOn k effects).foldl MqttConnection.applyCall c := by
  induction effects generalizing server with
  | nil => exact Option.map_id'.symm
  | cons e effects ih =>
      rw [List.foldl_cons, ih]
      cases e with
      | publish p => rfl
      | call x j call =>
          by_cases hj : j = k
          · subst hj
            rw [applyEffect, connections_modify_self, Option.map_map]
            simp [callsOn, Function.comp_def]
          · rw [applyEffect, connections_modify_of_ne hj]
            simp [callsOn, hj]

/-- The session manager processes an event. -/
theorem connections_of_dispatch {event : SessionManager.Event}
    (h : server.dispatch kept event = some (.ok (outputs, after))) (k : ConnectionId) :
    ∃ calls : List SenderCall, after.connections[k]? =
      server.connections[k]?.map fun c => calls.foldl MqttConnection.applyCall c := by
  obtain ⟨result, -, hresult⟩ := Option.map_eq_some_iff.mp h
  cases result with
  | error failure => cases hresult
  | ok r =>
      cases hresult
      exact ⟨callsOn k r.1, connections_foldl_applyEffect r.1⟩

/-- A connection that is called and does nothing else. -/
theorem lives_of_calls {calls : List SenderCall}
    (h : after.connections[k]? =
      server.connections[k]?.map fun c => calls.foldl MqttConnection.applyCall c) :
    Lives (server.connectionAt k) [] (after.connectionAt k) := by
  rw [connectionAt, connectionAt, h]
  cases server.connections[k]? with
  | none => exact .refl _
  | some c =>
      refine List.foldlRecOn calls (motive := fun d => Lives c [] d) _ (.refl c) ?_
      exact fun d hd call _ => hd.trans (lives_applyCall d call)

/-! ## Actions -/

/-- Whether an action calls the dispatcher. -/
def callsDispatcher : Action → Bool
  | .handlePacketReceived _ => true
  | .clientDisconnectedUngracefully _ _ => true
  | _ => false

/-- An action of another connection. -/
theorem lives_of_performAction {j : ConnectionId} (hj : j ≠ k) {action : Action}
    (h : server.performAction kept j action = some (.ok (outputs, after))) :
    Lives (server.connectionAt k) [] (after.connectionAt k) := by
  have hmodify : ∀ f : MqttConnection → MqttConnection,
      Lives (server.connectionAt k) [] ((server.modify j f).connectionAt k) := by
    intro f
    rw [connectionAt, connectionAt, connections_modify_of_ne hj]
    exact .refl _
  cases action with
  | handlePacketReceived container =>
      simp only [performAction] at h
      split at h
      · obtain ⟨calls, hcalls⟩ := connections_of_dispatch h k
        exact lives_of_calls hcalls
      · cases h
  | clientDisconnectedUngracefully clientId reason =>
      obtain ⟨calls, hcalls⟩ := connections_of_dispatch h k
      exact lives_of_calls hcalls
  | writePacket | writePacketAndCloseConnection | stop | readFrame =>
      cases h
      exact hmodify _

/-- All actions of another connection. -/
theorem lives_of_performActions {j : ConnectionId} (hj : j ≠ k) {actions : List Action}
    (h : performActions kept j actions server = some (.ok (outputs, after))) :
    Lives (server.connectionAt k) [] (after.connectionAt k) := by
  induction actions generalizing server outputs with
  | nil =>
      cases h
      exact .refl _
  | cons action rest ih =>
      obtain ⟨first, next, more, hfirst, hrest, -⟩ := performActions_cons_eq_ok_iff.mp h
      exact (lives_of_performAction hj hfirst).trans (ih hrest)

/-- An action of the connection itself.  What the environment does meanwhile matters only if the
dispatcher is called. -/
theorem exists_perform_of_performAction {action : Action}
    (hc : server.connections[k]? = some c)
    (h : server.performAction kept k action = some (.ok (outputs, after))) :
    ∃ calls, after.connections[k]? = some (MqttConnection.perform calls c action) ∧
      (callsDispatcher action = false → ∀ calls',
        MqttConnection.perform calls' c action = MqttConnection.perform calls c action) := by
  have hmodify : ∀ f : MqttConnection → MqttConnection,
      (server.modify k f).connections[k]? = some (f c) := by
    intro f
    rw [connections_modify_self, hc, Option.map_some]
  cases action with
  | handlePacketReceived container =>
      simp only [performAction] at h
      split at h
      · obtain ⟨calls, hcalls⟩ := connections_of_dispatch h k
        rw [hc] at hcalls
        exact ⟨calls, hcalls, fun hquiet => by cases hquiet⟩
      · cases h
  | clientDisconnectedUngracefully clientId reason =>
      obtain ⟨calls, hcalls⟩ := connections_of_dispatch h k
      rw [hc] at hcalls
      exact ⟨calls, hcalls, fun hquiet => by cases hquiet⟩
  | writePacket | writePacketAndCloseConnection | stop | readFrame =>
      cases h
      exact ⟨[], hmodify _, fun _ _ => rfl⟩

/-- Actions of the connection itself that do not call the dispatcher. -/
theorem connections_of_quiet {actions : List Action}
    (hquiet : ∀ action ∈ actions, callsDispatcher action = false)
    (hc : server.connections[k]? = some c)
    (h : performActions kept k actions server = some (.ok (outputs, after)))
    (calls : List SenderCall) :
    after.connections[k]? = some (actions.foldl (MqttConnection.perform calls) c) := by
  induction actions generalizing server outputs c with
  | nil =>
      cases h
      exact hc
  | cons action rest ih =>
      obtain ⟨first, next, more, hfirst, hrest, -⟩ := performActions_cons_eq_ok_iff.mp h
      obtain ⟨calls', hnext, hsame⟩ := exists_perform_of_performAction hc hfirst
      rw [← hsame (hquiet action List.mem_cons_self) calls] at hnext
      exact ih (fun a ha => hquiet a (List.mem_cons_of_mem _ ha)) hnext hrest

/-- Actions of the connection itself of which the first one at most calls the dispatcher. -/
theorem exists_foldl_perform {actions : List Action}
    (hquiet : ∀ action ∈ actions.tail, callsDispatcher action = false)
    (hc : server.connections[k]? = some c)
    (h : performActions kept k actions server = some (.ok (outputs, after))) :
    ∃ calls, after.connections[k]? =
      some (actions.foldl (MqttConnection.perform calls) c) := by
  cases actions with
  | nil => exact ⟨[], connections_of_quiet hquiet hc h []⟩
  | cons action rest =>
      obtain ⟨first, next, more, hfirst, hrest, -⟩ := performActions_cons_eq_ok_iff.mp h
      obtain ⟨calls, hnext, -⟩ := exists_perform_of_performAction hc hfirst
      exact ⟨calls, connections_of_quiet hquiet hnext hrest calls⟩

/-- No connection calls the dispatcher after it has done something else. -/
theorem quiet_tail_of_handle {event : ConnectionEvent} {actions : List Action}
    (h : c.handle event = some (.ok (c', actions))) :
    ∀ action ∈ actions.tail, callsDispatcher action = false := by
  have hquiets : ∀ action : Action, action.isQuiet = true → callsDispatcher action = false := by
    intro action hquiet
    cases action <;> first | rfl | cases hquiet
  cases MqttConnection.answer_of_handle h with
  | quiet _ _ hsame hquiet =>
      exact fun action hmem => hquiets action (hquiet action (List.mem_of_mem_tail hmem))
  | accepted connect =>
      simp [MqttConnection.dispatchConnectPacket, callsDispatcher]
  | handedOver clientId packet =>
      simp [callsDispatcher]
  | closed _ reason more hsame hreason hquiet =>
      have hmore : ∀ action ∈ more, callsDispatcher action = false :=
        fun action hmem => hquiets action (hquiet action hmem)
      intro action hmem
      cases hclient : c.clientId with
      | none =>
          rw [MqttConnection.connectionCloseRequested, hclient] at hmem
          exact hmore action hmem
      | some clientId =>
          rw [MqttConnection.connectionCloseRequested_of_some hclient] at hmem
          have htail : action ∈ .stop :: more := by
            split at hmem <;> exact hmem
          rcases List.mem_cons.mp htail with rfl | hmem
          · rfl
          · exact hmore action hmem

/-! ## Events and runs -/

/-- What an event does to a connection. -/
theorem lives_of_perform {event : ServerEvent}
    (h : server.perform kept event = some (.ok (outputs, after))) (k : ConnectionId) :
    Lives (server.connectionAt k) (eventAt k event).toList (after.connectionAt k) := by
  cases event with
  | accepted =>
      cases h
      have hsame : ({ server with
          connections := server.connections ++ [.started] } : MqttServer).connectionAt k =
            server.connectionAt k := by
        rw [connectionAt, connectionAt, List.getElem?_append]
        split
        · rfl
        · rename_i hlt
          rw [List.getElem?_eq_none (Nat.le_of_not_lt hlt), List.getElem?_singleton]
          split <;> rfl
      rw [hsame]
      exact .refl _
  | connection j event =>
      simp only [perform] at h
      split at h
      · rename_i c hc
        split at h
        · rename_i c' actions hhandle
          by_cases hj : j = k
          · subst hj
            have hbegin : (server.modify j fun _ => c').connections[j]? = some c' := by
              rw [connections_modify_self, hc, Option.map_some]
            obtain ⟨calls, hafter⟩ :=
              exists_foldl_perform (quiet_tail_of_handle hhandle) hbegin h
            rw [connectionAt_of_some hc, connectionAt_of_some hafter, eventAt, if_pos rfl]
            exact lives_event hhandle calls
          · rw [eventAt, if_neg hj]
            have hlives := lives_of_performActions hj h
            rw [connectionAt, connections_modify_of_ne hj] at hlives
            exact hlives
        · cases h
        · cases h
      · cases h
  | session event =>
      simp only [perform] at h
      split at h
      · obtain ⟨calls, hcalls⟩ := connections_of_dispatch h k
        exact lives_of_calls hcalls
      · cases h
  | stopAll =>
      cases h
      rw [connectionAt, connectionAt, stopAll, List.getElem?_map]
      cases server.connections[k]? with
      | none => exact .refl _
      | some c =>
          change Lives c [] (if c.isOpen then c.doStop else c)
          split
          · exact lives_applyCall c (.stop "")
          · exact .refl c

/-- The part of a run that concerns a connection is a run of this connection. -/
theorem lives_of_run {steps : List ServerStep}
    (hrun : machine.Run (some server) steps (some after)) (k : ConnectionId) :
    Lives (server.connectionAt k) (eventsAt k steps) (after.connectionAt k) := by
  refine hrun.alive_invariant (fun _ => rfl) (fun _ => True)
    (fun steps after => Lives (server.connectionAt k) (eventsAt k steps) (after.connectionAt k))
    (.refl _) ?_ (fun _ _ => trivial)
  rintro pre t e o u - ht hstep -
  obtain ⟨outputs, hperform, -⟩ := Machine.ofFallible_step_alive_iff.mp hstep
  have hevents : eventsAt k (pre ++ [⟨some t, e, o, some u⟩]) =
      eventsAt k pre ++ (eventAt k e.2).toList := by
    cases he : eventAt k e.2 <;> simp [eventsAt, he]
  rw [hevents]
  exact ht.trans (lives_of_perform hperform k)

/-! ## What holds of all connections -/

section Connections

variable {maxRetries : Nat} {steps pre post : List ServerStep}

/-- A connection of a server that has been created at the beginning. -/
theorem lives_of_started
    (hrun : machine.Run (some (create maxRetries)) steps (some server))
    (hc : server.connections[k]? = some c) : Lives .started (eventsAt k steps) c := by
  have hlives := lives_of_run hrun k
  rwa [connectionAt_of_some hc] at hlives

/-- Every connection is supervised at any time. -/
theorem connections_supervised
    (hrun : machine.Run (some (create maxRetries)) steps (some server)) :
    ∀ c ∈ server.connections, c.Supervised := by
  intro c hmem
  obtain ⟨k, hc⟩ := List.getElem?_of_mem hmem
  obtain ⟨own, hown, -⟩ := lives_of_started hrun hc
  exact supervised_of_run hown

/-- A closed connection keeps itself alive as long as it has handlers outstanding. -/
theorem alive_iff_of_closed (h : c.Closed) : c.alive = true ↔ 0 < c.outstanding := by
  have hidle : ∀ {timer : Timer}, timer.armed = false →
      (timer ≠ .idle ↔ 0 < timer.outstanding) := by
    rintro ⟨armed, expired, aborted⟩ harmed
    cases harmed
    simp [Timer.idle, Timer.outstanding]
    omega
  rw [MqttConnection.alive, h.isOpen, MqttConnection.outstanding]
  simp only [Bool.false_or, Bool.or_eq_true, decide_eq_true_eq, hidle h.connectionTimer,
    hidle h.keepAliveTimer, Bool.not_eq_true', List.isEmpty_eq_false_iff,
    ← List.length_pos_iff]
  split <;> simp_all

/-- A connection object exists while it keeps itself alive or somebody else refers to it. -/
theorem isSome_view_iff (hc : server.connections[k]? = some c) :
    (server.view kept k).isSome = true ↔ c.alive = true ∨ kept k = true := by
  rw [view, hc, Option.bind_some, ← Bool.or_eq_true]
  split <;> simp_all

/-- A closed connection stays closed and handles at most as many events as it has handlers
outstanding.  Once these have run its object exists only if somebody else refers to it, such as the
handler of a timer of its session. -/
theorem closed_connections_drain
    (hpre : machine.Run (some (create maxRetries)) pre (some server))
    (hc : server.connections[k]? = some c) (hclosed : c.isOpen = false)
    (hpost : machine.Run (some server) post (some after)) :
    ∃ c', after.connections[k]? = some c' ∧ c'.isOpen = false ∧
      (eventsAt k post).length + c'.outstanding = c.outstanding ∧
        ∀ kept, (after.view kept k).isSome = true ↔
          (eventsAt k post).length < c.outstanding ∨ kept k = true := by
  obtain ⟨own, hown, -⟩ := lives_of_started hpre hc
  have hlives := lives_of_run hpost k
  rw [connectionAt_of_some hc] at hlives
  obtain ⟨more, hmore, hevents⟩ := hlives
  obtain ⟨hnext, hcount⟩ := drains_of_run ((supervised_of_run hown).closed hclosed) hmore
  rw [hevents] at hcount
  have hsome : after.connections[k]? = some (after.connectionAt k) := by
    cases hafter : after.connections[k]? with
    | some c' => rw [connectionAt_of_some hafter]
    | none =>
        -- a connection that has not been accepted would be open
        have hopen := hnext.isOpen
        rw [connectionAt, hafter] at hopen
        cases hopen
  have hleft : 0 < (after.connectionAt k).outstanding ↔
      (eventsAt k post).length < c.outstanding := by omega
  refine ⟨_, hsome, hnext.isOpen, hcount, fun kept => ?_⟩
  rw [isSome_view_iff hsome, alive_iff_of_closed hnext, hleft]

/-- A client is given up for its silence only if a whole wait has elapsed in the course of which no
handler of a read operation has run on its connection, and for want of a CONNECT only if the time
for it has elapsed before one has been accepted. -/
theorem timeouts_justified
    (hrun : machine.Run (some (create maxRetries)) steps (some server)) (k : ConnectionId) :
    (∀ before since, eventsAt k steps = before ++ .keepAliveTimeout :: since →
      GivenUp before) ∧
      ∀ before since, eventsAt k steps = before ++ .connectionTimeout :: since →
        TooLate before := by
  obtain ⟨own, hown, hevents⟩ := lives_of_run hrun k
  have hjustified := justified_of_run hown
  rw [hevents] at hjustified
  exact ⟨hjustified.keepAliveTimeout, hjustified.connectionTimeout⟩

end Connections

/-- Events of a single connection. -/
def eventsOnFirst (events : List ConnectionEvent) :
    List ((ConnectionId → Bool) × ServerEvent) :=
  events.map fun event => (fun _ => false, .connection 0 event)

/-- A client connects and asks to be supervised. -/
def supervisedEvents : List ((ConnectionId → Bool) × ServerEvent) :=
  (fun _ => false, .accepted) :: eventsOnFirst [.frameArrives, .received
    (.connect { SessionManager.sampleConnect [0x78] with keepAliveSecs := 60 }) true]

/-- A client sends a PINGREQ after the wait for it has elapsed. -/
def tooLateEvents : List ((ConnectionId → Bool) × ServerEvent) :=
  eventsOnFirst [.keepAliveTimerElapses, .frameArrives, .received .pingreq true,
    .keepAliveTimeout]

/-- The handlers run that are outstanding after that. -/
def drainingEvents : List ((ConnectionId → Bool) × ServerEvent) :=
  eventsOnFirst [.written 1 true, .connectionTimerAborted, .readFailed .operationAborted,
    .written 0 true]

theorem connections_supervised_waiting : ∃ steps server,
    machine.Run (some (create 3)) steps (some server) ∧
      ∃ c ∈ server.connections, c.isOpen = true ∧ c.keepAlive = some 60 ∧ c.Supervised := by
  obtain ⟨steps, server, hexec, c, hmem, hopen, halive⟩ : ∃ steps server,
      machine.exec (some (create 3)) supervisedEvents = some (steps, some server) ∧
        ∃ c ∈ server.connections, c.isOpen = true ∧ c.keepAlive = some 60 :=
    ⟨_, _, rfl, _, List.mem_singleton.mpr rfl, rfl, rfl⟩
  have hrun := Machine.run_exec hexec
  exact ⟨steps, server, hrun, c, hmem, hopen, halive, connections_supervised hrun c hmem⟩

/-- The PINGREQ is answered, but comes too late to keep the connection. -/
theorem exec_tooLate : ∃ pre server post after,
    machine.exec (some (create 3)) (supervisedEvents ++ tooLateEvents) =
        some (pre, some server) ∧
      machine.exec (some server) drainingEvents = some (post, some after) ∧
        ∃ c, server.connections[0]? = some c ∧ c.isOpen = false ∧ c.outstanding = 4 ∧
          (eventsAt 0 post).length = 4 :=
  ⟨_, _, _, _, rfl, rfl, _, rfl, rfl, rfl, rfl⟩

theorem closed_connections_drain_tooLate : ∃ server post after,
    machine.Run (some server) post (some after) ∧
      (server.view (fun _ => false) 0).isSome = true ∧
        ∀ kept, (after.view kept 0).isSome = true ↔ kept 0 = true := by
  obtain ⟨pre, server, post, after, hpre, hpost, c, hc, hclosed, hfour, hevents⟩ := exec_tooLate
  have hrun := Machine.run_exec hpre
  have hbefore := closed_connections_drain hrun hc hclosed (.nil _)
  obtain ⟨c', hc', hclosed', hcount, hview⟩ :=
    closed_connections_drain hrun hc hclosed (Machine.run_exec hpost)
  refine ⟨server, post, after, Machine.run_exec hpost, ?_, fun kept => ?_⟩
  · obtain ⟨-, -, -, -, hview⟩ := hbefore
    rw [hview, hfour]
    exact Or.inl (Nat.succ_pos 3)
  · rw [hview, hfour, hevents]
    exact or_iff_right (Nat.lt_irrefl 4)

theorem timeouts_justified_tooLate : ∃ steps server before,
    machine.Run (some (create 3)) steps (some server) ∧
      eventsAt 0 steps = before ++ [.keepAliveTimeout] ∧ .received .pingreq true ∈ before ∧
        GivenUp before := by
  obtain ⟨pre, server, -, -, hpre, -⟩ := exec_tooLate
  have hevents : eventsAt 0 pre =
      [.frameArrives, .received
        (.connect { SessionManager.sampleConnect [0x78] with keepAliveSecs := 60 }) true,
        .keepAliveTimerElapses, .frameArrives, .received .pingreq true] ++
          [.keepAliveTimeout] := by
    have hinputs : eventsAt 0 pre = (pre.map Step.event).filterMap fun e => eventAt 0 e.2 := by
      rw [List.filterMap_map]
      rfl
    rw [hinputs, Machine.events_of_exec hpre]
    rfl
  have hrun := Machine.run_exec hpre
  exact ⟨pre, server, _, hrun, hevents, by simp, (timeouts_justified hrun 0).1 _ [] hevents⟩

end MqttServer

end Server
end WallyIo
