import WallyIo.Connection.Authentication

/-!
# Supervision of connections

What keeps an open connection from being forgotten: it reads, it waits for a CONNECT that
does not come, and it waits for its client to be silent for too long.  What keeps a closed
connection from living on: nothing is started any more, so that its own handlers run out.

Main results:

- Theorem {lit}`supervised_of_run`: both after every run.
- Theorem {lit}`drains_of_run`: a closed connection handles one event for each of its handlers
  that is outstanding, and no more.
- Theorem {lit}`justified_of_run`: a client is given up only after a wait in the course of which no
  read operation of its connection has ended.
-/

namespace WallyIo
namespace Connection

open Protocol
open Library
open Codec
open Dispatch

namespace MqttConnection

/-! ## Supervision -/

/-- The timers of a connection are in order. -/
structure Attended (c : MqttConnection) : Prop where
  /-- The time that a client has for its CONNECT is running, or it is up and the handler is
  queued. -/
  connects : c.isOpen = true → c.clientId = none → c.closeOnConnectionTimeout.Pending
  /-- Only a client that is known can have asked for supervision. -/
  unknown : c.isOpen = true → c.clientId = none → c.keepAlive = none
  /-- There is one wait for a client that has asked for it to be silent, never two. -/
  keptAlive : c.isOpen = true →
    c.closeOnKeepAliveTimeout.outstanding = if c.keepAlive.isSome then 1 else 0
  /-- A closed connection waits for nothing. -/
  released : c.isOpen = false →
    c.closeOnConnectionTimeout.armed = false ∧ c.closeOnKeepAliveTimeout.armed = false

/-- The timers are in order, and an open connection reads. -/
structure Supervised (c : MqttConnection) : Prop extends c.Attended where
  reads : c.isOpen = true → c.read ≠ .idle

variable {c c' : MqttConnection} {event : ConnectionEvent} {actions : List Action}

/-! ## What the actions preserve -/

/-- A connection that has been stopped. -/
theorem supervised_doStop (c : MqttConnection) : c.doStop.Supervised where
  connects hopen := by cases hopen
  unknown hopen := by cases hopen
  keptAlive hopen := by cases hopen
  released _ := ⟨Timer.cancel_armed _, Timer.cancel_armed _⟩
  reads hopen := by cases hopen

theorem Attended.write (h : c.Attended) (handler : WriteHandler) :
    (c.write handler).Attended := by
  unfold MqttConnection.write
  split
  · exact ⟨h.connects, h.unknown, h.keptAlive, h.released⟩
  · exact h

/-- Reading makes up for what is missing. -/
theorem Attended.readFrame (h : c.Attended) : c.readFrame.Supervised := by
  unfold MqttConnection.readFrame
  split
  · exact ⟨⟨h.connects, h.unknown, h.keptAlive, h.released⟩, fun _ => by simp⟩
  · rename_i hclosed
    exact ⟨h, fun hopen => absurd hopen hclosed⟩

theorem Attended.applyCall (h : c.Attended) (call : SenderCall) : (c.applyCall call).Attended := by
  cases call with
  | send => exact h.write .keeps
  | stop => exact (supervised_doStop c).toAttended

/-- No action disturbs the timers. -/
theorem Attended.perform (h : c.Attended) (calls : List SenderCall) (action : Action) :
    (MqttConnection.perform calls c action).Attended := by
  have hcalls : (calls.foldl MqttConnection.applyCall c).Attended :=
    List.foldlRecOn calls _ h fun _ hb call _ => hb.applyCall call
  cases action with
  | handlePacketReceived => exact hcalls
  | clientDisconnectedUngracefully => exact hcalls
  | writePacket => exact h.write _
  | writePacketAndCloseConnection => exact h.write _
  | stop => exact (supervised_doStop c).toAttended
  | readFrame => exact h.readFrame.toAttended

theorem Supervised.write (h : c.Supervised) (handler : WriteHandler) :
    (c.write handler).Supervised := by
  refine ⟨h.toAttended.write handler, ?_⟩
  rw [isOpen_write]
  unfold MqttConnection.write
  split <;> exact h.reads

theorem Supervised.applyCall (h : c.Supervised) (call : SenderCall) :
    (c.applyCall call).Supervised := by
  cases call with
  | send => exact h.write .keeps
  | stop => exact supervised_doStop c

/-- No action ends the supervision. -/
theorem Supervised.perform (h : c.Supervised) (calls : List SenderCall) (action : Action) :
    (MqttConnection.perform calls c action).Supervised := by
  have hcalls : (calls.foldl MqttConnection.applyCall c).Supervised :=
    List.foldlRecOn calls _ h fun _ hb call _ => hb.applyCall call
  cases action with
  | handlePacketReceived => exact hcalls
  | clientDisconnectedUngracefully => exact hcalls
  | writePacket => exact h.write _
  | writePacketAndCloseConnection => exact h.write _
  | stop => exact supervised_doStop c
  | readFrame => exact h.toAttended.readFrame

theorem Supervised.foldl_perform (h : c.Supervised) (calls : List SenderCall)
    (actions : List Action) : (actions.foldl (MqttConnection.perform calls) c).Supervised :=
  List.foldlRecOn actions _ h fun _ hb action _ => hb.perform calls action

/-- Whatever a connection does, it is supervised if it is stopped in the end. -/
theorem supervised_of_stop (c : MqttConnection) (calls : List SenderCall)
    (hstop : .stop ∈ actions) : (actions.foldl (MqttConnection.perform calls) c).Supervised := by
  obtain ⟨before, behind, rfl⟩ := List.append_of_mem hstop
  rw [List.foldl_append, List.foldl_cons]
  exact Supervised.foldl_perform (supervised_doStop _) calls behind

/-- A connection whose timers are in order is supervised in the end if it reads on. -/
theorem Attended.supervised_of_readFrame (h : c.Attended) (calls : List SenderCall)
    (hread : .readFrame ∈ actions) :
    (actions.foldl (MqttConnection.perform calls) c).Supervised := by
  obtain ⟨before, behind, rfl⟩ := List.append_of_mem hread
  rw [List.foldl_append, List.foldl_cons]
  have hbefore : (before.foldl (MqttConnection.perform calls) c).Attended :=
    List.foldlRecOn before _ h fun _ hb action _ => hb.perform calls action
  exact Supervised.foldl_perform hbefore.readFrame calls behind

/-! ## What the events preserve -/

@[simp]
theorem closeOnConnectionTimeout_startKeepAlive (c : MqttConnection) :
    c.startKeepAlive.closeOnConnectionTimeout = c.closeOnConnectionTimeout := by
  unfold startKeepAlive
  split <;> rfl

@[simp]
theorem expired_startKeepAlive (c : MqttConnection) :
    c.startKeepAlive.closeOnKeepAliveTimeout.expired = c.closeOnKeepAliveTimeout.expired := by
  unfold startKeepAlive
  split
  · exact Timer.restart_expired _
  · rfl

/-- The handler of a read operation hands its client's wait over to the next one. -/
theorem Attended.onFrameRead (h : c.Attended) : c.onFrameRead.Attended where
  connects := h.connects
  unknown := h.unknown
  keptAlive hopen := (Timer.outstanding_cancel _).trans (h.keptAlive hopen)
  released hclosed := ⟨(h.released hclosed).1, Timer.cancel_armed _⟩

/-- Where nothing waits for a client to be silent, a wait may be started. -/
theorem attended_startKeepAlive (hopen : c.isOpen = true)
    (hconnects : c.clientId = none → c.closeOnConnectionTimeout.Pending)
    (hunknown : c.clientId = none → c.keepAlive = none)
    (hidle : c.closeOnKeepAliveTimeout.outstanding = 0) : c.startKeepAlive.Attended := by
  have hnever : ∀ {P : Prop}, c.isOpen = false → P := by
    intro P hclosed
    rw [hopen] at hclosed
    cases hclosed
  unfold startKeepAlive
  split
  · rename_i secs halive
    refine ⟨fun _ => hconnects, fun _ => hunknown, fun _ => ?_, hnever⟩
    rw [Timer.outstanding_restart, hidle, halive]
    rfl
  · rename_i halive
    refine ⟨fun _ => hconnects, fun _ => hunknown, fun _ => ?_, hnever⟩
    rw [hidle, halive]
    rfl

/-- A client that has been accepted is waited for if it has asked for that. -/
theorem Attended.connected (h : c.Attended) (hclient : c.clientId = none)
    (hopen : c.isOpen = true) (connect : Connect) : (c.connected connect).Attended := by
  have hidle : c.closeOnKeepAliveTimeout.outstanding = 0 := by
    rw [h.keptAlive hopen, h.unknown hopen hclient]
    rfl
  unfold MqttConnection.connected
  split
  · refine attended_startKeepAlive hopen ?_ ?_ hidle
    · intro hnone
      cases hnone
    · intro hnone
      cases hnone
  · refine ⟨?_, ?_, h.keptAlive, ?_⟩
    · intro _ hnone
      cases hnone
    · intro _ hnone
      cases hnone
    · exact fun hclosed => ⟨Timer.cancel_armed _, (h.released hclosed).2⟩

/-- Closing a connection ends with stopping it. -/
theorem stop_mem_connectionCloseRequested (c : MqttConnection) (reason : DisconnectReason) :
    .stop ∈ c.connectionCloseRequested reason := by
  unfold connectionCloseRequested
  split
  · cases reason <;> simp
  · simp

/-- After a packet a connection reads on or is stopped.  Only an accepted CONNECT changes
it. -/
theorem cases_of_processDecodedPacket {packet : MqttPacket} {authenticated : Bool}
    (h : c.processDecodedPacket packet authenticated = .ok (c', actions)) :
    (.stop ∈ actions ∨ .readFrame ∈ actions) ∧
      ((c' = c ∧ (c.clientId = none → ∀ connect, packet = .connect connect →
          authenticated = false)) ∨
        ∃ connect, packet = .connect connect ∧ authenticated = true ∧ c.clientId = none ∧
          c.isOpen = true ∧ c' = c.connected connect) := by
  have hands : ∀ {packet' : MqttPacket}, (∀ connect, packet ≠ .connect connect) →
      (c.dispatchPacket packet' >>= fun actions' =>
        Except.ok (c, actions' ++ [.readFrame])) = .ok (c', actions) →
          .readFrame ∈ actions ∧ c' = c ∧ (c.clientId = none → ∀ connect,
            packet = .connect connect → authenticated = false) := by
    intro packet' hconnect h
    obtain ⟨actions', -, h⟩ := bind_eq_ok_iff.mp h
    cases h
    exact ⟨by simp, rfl, fun _ connect he => absurd he (hconnect connect)⟩
  cases packet with
  | connect connect =>
      obtain ⟨⟨c'', actions'⟩, hprocess, h⟩ := bind_eq_ok_iff.mp h
      cases h
      refine ⟨Or.inr (by simp), ?_⟩
      unfold processConnectPacket at hprocess
      split at hprocess
      · rename_i clientId hclient
        cases hprocess
        refine Or.inl ⟨rfl, fun hnone => ?_⟩
        rw [hclient] at hnone
        cases hnone
      · rename_i hclient
        split at hprocess
        · cases hprocess
        · rename_i hopen
          split at hprocess
          · rename_i hrefused
            cases hprocess
            exact Or.inl ⟨rfl, fun _ _ _ => by simpa using hrefused⟩
          · rename_i haccepted
            cases hprocess
            exact Or.inr ⟨connect, rfl, by simpa using haccepted, hclient,
              by simpa using hopen, rfl⟩
  | pingreq =>
      cases h
      exact ⟨Or.inr (by simp), Or.inl ⟨rfl, fun _ _ he => by cases he⟩⟩
  | disconnect =>
      obtain ⟨actions', hdispatch, h⟩ := bind_eq_ok_iff.mp h
      cases h
      unfold dispatchDisconnectPacket at hdispatch
      split at hdispatch
      · cases hdispatch
        exact ⟨Or.inl (by simp), Or.inl ⟨rfl, fun _ _ he => by cases he⟩⟩
      · cases hdispatch
  | subscribe | unsubscribe | publish | publishAck =>
      have hhanded := hands (fun _ he => by cases he) h
      exact ⟨Or.inr hhanded.1, Or.inl hhanded.2⟩
  | connack | pingresp | suback | unsuback => cases h

/-- After an event a connection is stopped, or its timers are in order and it reads on. -/
theorem Supervised.of_handle (h : c.Supervised)
    (hhandle : c.handle event = some (.ok (c', actions))) :
    .stop ∈ actions ∨ c'.Attended ∧ .readFrame ∈ actions ∨ c'.Supervised := by
  cases event with
  | frameArrives =>
      simp only [handle] at hhandle
      split at hhandle
      · cases hhandle
        exact Or.inr <| Or.inr
          ⟨⟨h.connects, h.unknown, h.keptAlive, h.released⟩, fun _ => by simp⟩
      · cases hhandle
  | received packet authenticated =>
      simp only [handle] at hhandle
      split at hhandle
      · rw [Option.some.injEq] at hhandle
        obtain ⟨hstop | hread, hsame⟩ := cases_of_processDecodedPacket hhandle
        · exact Or.inl hstop
        · refine Or.inr <| Or.inl ⟨?_, hread⟩
          rcases hsame with ⟨rfl, -⟩ | ⟨connect, -, -, hclient, hopen, rfl⟩
          · exact h.toAttended.onFrameRead
          · exact h.toAttended.onFrameRead.connected hclient hopen connect
      · cases hhandle
  | malformed =>
      simp only [handle] at hhandle
      split at hhandle
      · cases hhandle
        exact Or.inl (stop_mem_connectionCloseRequested _ _)
      · cases hhandle
  | readFailed ec =>
      simp only [handle] at hhandle
      split at hhandle
      · cases ec with
        | operationAborted =>
            simp only at hhandle
            split at hhandle
            · cases hhandle
            · rename_i hclosed
              cases hhandle
              exact Or.inr <| Or.inr
                ⟨h.toAttended.onFrameRead, fun hopen => absurd hopen hclosed⟩
        | other message =>
            cases hhandle
            exact Or.inl (stop_mem_connectionCloseRequested _ _)
      · cases hhandle
  | written i ok =>
      simp only [handle] at hhandle
      split at hhandle
      · rename_i handler _
        cases hhandle
        cases handler with
        | closes reason => exact Or.inl (stop_mem_connectionCloseRequested _ _)
        | keeps =>
            cases ok with
            | false => exact Or.inl (stop_mem_connectionCloseRequested _ .networkOrServerFailure)
            | true =>
                exact Or.inr <| Or.inr
                  ⟨⟨h.connects, h.unknown, h.keptAlive, h.released⟩, h.reads⟩
      · cases hhandle
  | connectionTimerElapses =>
      simp only [handle, Option.map_eq_some_iff] at hhandle
      obtain ⟨timer, htimer, hhandle⟩ := hhandle
      cases hhandle
      obtain ⟨-, rfl⟩ := Timer.expire_eq_some_iff.mp htimer
      refine Or.inr <| Or.inr ⟨⟨fun _ _ => Or.inr (Nat.succ_pos _), h.unknown, h.keptAlive,
        fun hclosed => ⟨rfl, (h.released hclosed).2⟩⟩, h.reads⟩
  | connectionTimeout =>
      simp only [handle, Option.map_eq_some_iff] at hhandle
      obtain ⟨timer, -, hhandle⟩ := hhandle
      cases hhandle
      exact Or.inl (stop_mem_connectionCloseRequested _ _)
  | connectionTimerAborted =>
      simp only [handle, Option.map_eq_some_iff] at hhandle
      obtain ⟨timer, htimer, hhandle⟩ := hhandle
      cases hhandle
      obtain ⟨-, rfl⟩ := Timer.takeAborted_eq_some_iff.mp htimer
      exact Or.inr <| Or.inr ⟨⟨h.connects, h.unknown, h.keptAlive, h.released⟩, h.reads⟩
  | keepAliveTimerElapses =>
      simp only [handle, Option.map_eq_some_iff] at hhandle
      obtain ⟨timer, htimer, hhandle⟩ := hhandle
      cases hhandle
      have hwaits := Timer.outstanding_of_expire htimer
      obtain ⟨-, rfl⟩ := Timer.expire_eq_some_iff.mp htimer
      exact Or.inr <| Or.inr ⟨⟨h.connects, h.unknown,
        fun hopen => hwaits.trans (h.keptAlive hopen),
        fun hclosed => ⟨(h.released hclosed).1, rfl⟩⟩, h.reads⟩
  | keepAliveTimeout =>
      simp only [handle, Option.map_eq_some_iff] at hhandle
      obtain ⟨timer, -, hhandle⟩ := hhandle
      cases hhandle
      exact Or.inl (stop_mem_connectionCloseRequested _ _)
  | keepAliveTimerAborted =>
      simp only [handle, Option.map_eq_some_iff] at hhandle
      obtain ⟨timer, htimer, hhandle⟩ := hhandle
      cases hhandle
      have hwaits := Timer.outstanding_of_takeAborted htimer
      obtain ⟨-, rfl⟩ := Timer.takeAborted_eq_some_iff.mp htimer
      refine Or.inr <| Or.inr ?_
      split
      · -- the wait that has been cancelled is the only one, and the next one takes its place
        rename_i hopen
        have hone := hwaits.trans (h.keptAlive hopen)
        refine ⟨attended_startKeepAlive hopen (h.connects hopen) (h.unknown hopen) ?_, ?_⟩
        · split at hone
          · exact Nat.succ.inj hone
          · exact absurd hone (Nat.succ_ne_zero _)
        · rw [isOpen_startKeepAlive]
          unfold startKeepAlive
          split <;> exact h.reads
      · rename_i hclosed
        exact ⟨⟨h.connects, h.unknown, fun hopen => absurd hopen hclosed, h.released⟩, h.reads⟩

/-- A supervised connection stays supervised. -/
theorem Supervised.react {input : ConnectionInput} (h : c.Supervised)
    (hreact : c.react input = some (.ok (actions, c'))) : c'.Supervised := by
  cases input with
  | call call =>
      cases hreact
      exact h.applyCall call
  | event event calls =>
      obtain ⟨result, hhandle, hresult⟩ := Option.map_eq_some_iff.mp hreact
      cases result with
      | error failure => cases hresult
      | ok answer =>
          cases hresult
          rcases h.of_handle hhandle with hstop | ⟨hattended, hread⟩ | hsupervised
          · exact supervised_of_stop _ calls hstop
          · exact hattended.supervised_of_readFrame calls hread
          · exact hsupervised.foldl_perform calls _

end MqttConnection

/-- A connection that has just been started is supervised. -/
theorem supervised_started : MqttConnection.started.Supervised where
  connects _ _ := Timer.restart_pending _
  unknown _ _ := rfl
  keptAlive _ := rfl
  released hclosed := by cases hclosed
  reads _ := by simp [MqttConnection.started]

/-- A connection is supervised after every run. -/
theorem supervised_of_run {steps : List ConnectionStep} {c : MqttConnection}
    (hrun : connectionMachine.Run (some .started) steps (some c)) : c.Supervised := by
  refine hrun.alive_invariant (fun _ => rfl) (fun _ => True) (fun _ c => c.Supervised)
    supervised_started ?_ (fun _ _ => trivial)
  intro pre c input o c' _ hc hstep _
  obtain ⟨actions, hreact, -⟩ := Machine.ofFallible_step_alive_iff.mp hstep
  exact hc.react hreact

/-! ## Closed connections -/

/-- The event that an input consists of, if it is one. -/
def ConnectionInput.handled : ConnectionInput → Option ConnectionEvent
  | .event e _ => some e
  | .call _ => none

/-- The events of a run, in order. -/
def eventsOf (steps : List ConnectionStep) : List ConnectionEvent :=
  steps.filterMap fun x => x.event.handled

@[simp]
theorem eventsOf_nil : eventsOf [] = [] := rfl

@[simp]
theorem eventsOf_append (xs ys : List ConnectionStep) :
    eventsOf (xs ++ ys) = eventsOf xs ++ eventsOf ys := List.filterMap_append

@[simp]
theorem eventsOf_singleton (x : ConnectionStep) : eventsOf [x] = x.event.handled.toList := by
  cases h : x.event.handled <;> simp [eventsOf, h]

namespace MqttConnection

variable {c c' : MqttConnection} {event : ConnectionEvent} {actions : List Action}

/-- The handlers of a connection that have not run.  Those of its session are not among them. -/
def outstanding (c : MqttConnection) : Nat :=
  (if c.read = .idle then 0 else 1) + c.writes.length + c.closeOnConnectionTimeout.outstanding +
    c.closeOnKeepAliveTimeout.outstanding

/-- A connection that has been closed and waits for nothing. -/
structure Closed (c : MqttConnection) : Prop where
  isOpen : c.isOpen = false
  connectionTimer : c.closeOnConnectionTimeout.armed = false
  keepAliveTimer : c.closeOnKeepAliveTimeout.armed = false

/-- A supervised connection waits for nothing once it is closed. -/
theorem Supervised.closed (h : c.Supervised) (hclosed : c.isOpen = false) : c.Closed :=
  ⟨hclosed, (h.released hclosed).1, (h.released hclosed).2⟩

/-- What the dispatcher does to a closed connection is without effect. -/
theorem Closed.applyCall (h : c.Closed) (call : SenderCall) : c.applyCall call = c := by
  cases call with
  | send =>
      rw [MqttConnection.applyCall, MqttConnection.write, h.isOpen, if_neg Bool.false_ne_true]
  | stop =>
      rw [MqttConnection.applyCall, doStop, Timer.cancel_of_not_armed h.connectionTimer,
        Timer.cancel_of_not_armed h.keepAliveTimer, ← h.isOpen]

/-- No action has an effect on a closed connection. -/
theorem Closed.perform (h : c.Closed) (calls : List SenderCall) (action : Action) :
    MqttConnection.perform calls c action = c := by
  have hcalls : calls.foldl MqttConnection.applyCall c = c :=
    List.foldlRecOn calls (motive := fun d => d = c) _ rfl fun _ hd call _ =>
      hd.symm ▸ h.applyCall call
  have hstop : c.doStop = c := h.applyCall (.stop "")
  have hwrite : ∀ handler, c.write handler = c := fun handler => by
    rw [MqttConnection.write, h.isOpen, if_neg Bool.false_ne_true]
  cases action with
  | handlePacketReceived => exact hcalls
  | clientDisconnectedUngracefully => exact hcalls
  | writePacket => exact hwrite _
  | writePacketAndCloseConnection => exact hwrite _
  | stop => exact hstop
  | readFrame =>
      rw [MqttConnection.perform, MqttConnection.readFrame, h.isOpen,
        if_neg Bool.false_ne_true]

theorem Closed.foldl_perform (h : c.Closed) (calls : List SenderCall) (actions : List Action) :
    actions.foldl (MqttConnection.perform calls) c = c :=
  List.foldlRecOn actions (motive := fun d => d = c) _ rfl fun _ hd action _ =>
    hd.symm ▸ h.perform calls action

/-- The handler of the read operation of a closed connection. -/
theorem Closed.onFrameRead (h : c.Closed) (hread : c.read ≠ .idle) :
    c.onFrameRead.Closed ∧ c.onFrameRead.outstanding + 1 = c.outstanding := by
  refine ⟨⟨h.isOpen, h.connectionTimer, Timer.cancel_armed _⟩, ?_⟩
  simp only [outstanding, MqttConnection.onFrameRead, Timer.outstanding_cancel, if_true,
    if_neg hread]
  omega

/-- A closed connection stays closed, and has one handler less after every event. -/
theorem Closed.of_handle (h : c.Closed)
    (hhandle : c.handle event = some (.ok (c', actions))) :
    c'.Closed ∧ c'.outstanding + 1 = c.outstanding := by
  have hnever : ∀ {P : Prop}, c.isOpen = true → P := by
    intro P hopen
    rw [h.isOpen] at hopen
    cases hopen
  cases event with
  | frameArrives =>
      simp only [handle] at hhandle
      split at hhandle
      · rename_i hallowed
        exact hnever hallowed.1
      · cases hhandle
  | received packet authenticated =>
      simp only [handle] at hhandle
      split at hhandle
      · rename_i hallowed
        have hread := h.onFrameRead (by rw [hallowed.1]; simp)
        rw [Option.some.injEq] at hhandle
        obtain ⟨-, ⟨rfl, -⟩ | ⟨connect, -, -, -, hopen, -⟩⟩ :=
          cases_of_processDecodedPacket hhandle
        · exact hread
        · exact hnever hopen
      · cases hhandle
  | malformed =>
      simp only [handle] at hhandle
      split at hhandle
      · rename_i hread
        cases hhandle
        exact h.onFrameRead (by rw [hread]; simp)
      · cases hhandle
  | readFailed ec =>
      simp only [handle] at hhandle
      split at hhandle
      · rename_i hread
        have hnext := h.onFrameRead (by rw [hread]; simp)
        cases ec with
        | operationAborted =>
            simp only at hhandle
            split at hhandle
            · cases hhandle
            · cases hhandle
              exact hnext
        | other message =>
            cases hhandle
            exact hnext
      · cases hhandle
  | written i ok =>
      simp only [handle] at hhandle
      split at hhandle
      · rename_i handler hhandler
        cases hhandle
        refine ⟨⟨h.isOpen, h.connectionTimer, h.keepAliveTimer⟩, ?_⟩
        obtain ⟨hlt, -⟩ := List.getElem?_eq_some_iff.mp hhandler
        simp only [outstanding, List.length_eraseIdx, if_pos hlt]
        omega
      · cases hhandle
  | connectionTimerElapses =>
      simp only [handle, Option.map_eq_some_iff] at hhandle
      obtain ⟨timer, htimer, -⟩ := hhandle
      have harmed := (Timer.expire_eq_some_iff.mp htimer).1
      rw [h.connectionTimer] at harmed
      cases harmed
  | connectionTimeout =>
      simp only [handle, Option.map_eq_some_iff] at hhandle
      obtain ⟨timer, htimer, hhandle⟩ := hhandle
      cases hhandle
      have hwaits := Timer.outstanding_of_takeExpired htimer
      obtain ⟨-, rfl⟩ := Timer.takeExpired_eq_some_iff.mp htimer
      refine ⟨⟨h.isOpen, h.connectionTimer, h.keepAliveTimer⟩, ?_⟩
      simp only [outstanding]
      omega
  | connectionTimerAborted =>
      simp only [handle, Option.map_eq_some_iff] at hhandle
      obtain ⟨timer, htimer, hhandle⟩ := hhandle
      cases hhandle
      have hwaits := Timer.outstanding_of_takeAborted htimer
      obtain ⟨-, rfl⟩ := Timer.takeAborted_eq_some_iff.mp htimer
      refine ⟨⟨h.isOpen, h.connectionTimer, h.keepAliveTimer⟩, ?_⟩
      simp only [outstanding]
      omega
  | keepAliveTimerElapses =>
      simp only [handle, Option.map_eq_some_iff] at hhandle
      obtain ⟨timer, htimer, -⟩ := hhandle
      have harmed := (Timer.expire_eq_some_iff.mp htimer).1
      rw [h.keepAliveTimer] at harmed
      cases harmed
  | keepAliveTimeout =>
      simp only [handle, Option.map_eq_some_iff] at hhandle
      obtain ⟨timer, htimer, hhandle⟩ := hhandle
      cases hhandle
      have hwaits := Timer.outstanding_of_takeExpired htimer
      obtain ⟨-, rfl⟩ := Timer.takeExpired_eq_some_iff.mp htimer
      refine ⟨⟨h.isOpen, h.connectionTimer, h.keepAliveTimer⟩, ?_⟩
      simp only [outstanding]
      omega
  | keepAliveTimerAborted =>
      simp only [handle, Option.map_eq_some_iff] at hhandle
      obtain ⟨timer, htimer, hhandle⟩ := hhandle
      cases hhandle
      have hwaits := Timer.outstanding_of_takeAborted htimer
      obtain ⟨-, rfl⟩ := Timer.takeAborted_eq_some_iff.mp htimer
      rw [if_neg (fun hopen => hnever hopen)]
      refine ⟨⟨h.isOpen, h.connectionTimer, h.keepAliveTimer⟩, ?_⟩
      simp only [outstanding]
      omega

end MqttConnection

/-- A run from a closed connection handles one event for each handler that it uses up. -/
theorem drains_of_run {steps : List ConnectionStep} {c c' : MqttConnection}
    (hclosed : c.Closed) (hrun : connectionMachine.Run (some c) steps (some c')) :
    c'.Closed ∧ (eventsOf steps).length + c'.outstanding = c.outstanding := by
  refine hrun.alive_invariant (fun _ => rfl) (fun _ => True) (fun steps c' =>
    c'.Closed ∧ (eventsOf steps).length + c'.outstanding = c.outstanding)
    ⟨hclosed, Nat.zero_add _⟩ ?_ (fun _ _ => trivial)
  rintro pre t input o u - ⟨ht, hcount⟩ hstep -
  obtain ⟨actions, hreact, -⟩ := Machine.ofFallible_step_alive_iff.mp hstep
  rw [eventsOf_append, List.length_append, eventsOf_singleton]
  cases input with
  | call call =>
      cases hreact
      rw [ht.applyCall]
      exact ⟨ht, hcount⟩
  | event event calls =>
      obtain ⟨result, hhandle, hresult⟩ := Option.map_eq_some_iff.mp hreact
      cases result with
      | error failure => cases hresult
      | ok answer =>
          cases hresult
          obtain ⟨hnext, hless⟩ := ht.of_handle hhandle
          rw [hnext.foldl_perform]
          refine ⟨hnext, ?_⟩
          simp only [ConnectionInput.handled, Option.toList_some, List.length_singleton]
          omega

/-! ## Silent clients -/

/-- The handler of the read operation has run. -/
def ConnectionEvent.isRead : ConnectionEvent → Bool
  | .received _ _ => true
  | .malformed => true
  | .readFailed _ => true
  | _ => false

/-- A CONNECT that the authentication service accepts. -/
def ConnectionEvent.IsAccepted (event : ConnectionEvent) : Prop :=
  ∃ connect, event = .received (.connect connect) true

/-- The events after which a connection waits for its client to be silent: it is accepted with
a time that is not zero, or the last wait has been cancelled. -/
def ConnectionEvent.StartsWait (event : ConnectionEvent) : Prop :=
  (∃ connect, event = .received (.connect connect) true ∧ 0 < connect.keepAliveSecs) ∨
    event = .keepAliveTimerAborted

/-- A wait has been started, and no handler of a read operation has run since. -/
def Silent (events : List ConnectionEvent) : Prop :=
  ∃ before start since, events = before ++ start :: since ∧ start.StartsWait ∧
    ∀ e ∈ since, e.isRead = false

/-- A wait has elapsed in the course of which no handler of a read operation has run.  Packets that
are read after that are too late, even if they are answered before the handler of the timer
runs. -/
def GivenUp (events : List ConnectionEvent) : Prop :=
  ∃ wait since, events = wait ++ .keepAliveTimerElapses :: since ∧ Silent wait

/-- The time for a CONNECT has elapsed before one has been accepted.  A CONNECT that is accepted
after that is too late. -/
def TooLate (events : List ConnectionEvent) : Prop :=
  ∃ before since, events = before ++ .connectionTimerElapses :: since ∧
    ∀ e ∈ before, ¬ e.IsAccepted

variable {events : List ConnectionEvent} {event : ConnectionEvent}

theorem Silent.append (h : Silent events) (hquiet : event.isRead = false) :
    Silent (events ++ [event]) := by
  obtain ⟨before, start, since, rfl, hstart, hsince⟩ := h
  refine ⟨before, start, since ++ [event], by simp, hstart, ?_⟩
  intro e he
  rcases List.mem_append.mp he with he | he
  · exact hsince e he
  · rw [List.mem_singleton.mp he]
    exact hquiet

theorem GivenUp.append (h : GivenUp events) : GivenUp (events ++ [event]) := by
  obtain ⟨wait, since, rfl, hsilent⟩ := h
  exact ⟨wait, since ++ [event], by simp, hsilent⟩

theorem TooLate.append (h : TooLate events) : TooLate (events ++ [event]) := by
  obtain ⟨before, since, rfl, hnone⟩ := h
  exact ⟨before, since ++ [event], by simp, hnone⟩

namespace MqttConnection

variable {c c' : MqttConnection} {actions : List Action}

/-- What happens to the timers of a connection while it starts no wait. -/
structure Lapses (c c' : MqttConnection) : Prop where
  connectionArmed : c'.closeOnConnectionTimeout.armed = true →
    c.closeOnConnectionTimeout.armed = true
  connectionExpired : c'.closeOnConnectionTimeout.expired = c.closeOnConnectionTimeout.expired
  keepAliveArmed : c'.closeOnKeepAliveTimeout.armed = true →
    c.closeOnKeepAliveTimeout.armed = true
  keepAliveExpired : c'.closeOnKeepAliveTimeout.expired = c.closeOnKeepAliveTimeout.expired

theorem Lapses.refl (c : MqttConnection) : c.Lapses c := ⟨id, rfl, id, rfl⟩

theorem Lapses.trans {c'' : MqttConnection} (h : c.Lapses c') (h' : c'.Lapses c'') :
    c.Lapses c'' where
  connectionArmed := h.connectionArmed ∘ h'.connectionArmed
  connectionExpired := h'.connectionExpired.trans h.connectionExpired
  keepAliveArmed := h.keepAliveArmed ∘ h'.keepAliveArmed
  keepAliveExpired := h'.keepAliveExpired.trans h.keepAliveExpired

theorem lapses_write (c : MqttConnection) (handler : WriteHandler) :
    c.Lapses (c.write handler) := by
  unfold MqttConnection.write
  split
  · exact ⟨id, rfl, id, rfl⟩
  · exact .refl c

theorem lapses_doStop (c : MqttConnection) : c.Lapses c.doStop := by
  refine ⟨fun harmed => ?_, Timer.cancel_expired _, fun harmed => ?_, Timer.cancel_expired _⟩
  · exact absurd harmed (by simp [doStop])
  · exact absurd harmed (by simp [doStop])

/-- No action starts a wait. -/
theorem lapses_perform (c : MqttConnection) (calls : List SenderCall) (action : Action) :
    c.Lapses (MqttConnection.perform calls c action) := by
  have hcalls : c.Lapses (calls.foldl MqttConnection.applyCall c) := by
    refine List.foldlRecOn calls _ (.refl c) fun d hd call _ => hd.trans ?_
    cases call with
    | send => exact lapses_write d .keeps
    | stop => exact lapses_doStop d
  cases action with
  | handlePacketReceived => exact hcalls
  | clientDisconnectedUngracefully => exact hcalls
  | writePacket => exact lapses_write c _
  | writePacketAndCloseConnection => exact lapses_write c _
  | stop => exact lapses_doStop c
  | readFrame =>
      change c.Lapses c.readFrame
      unfold MqttConnection.readFrame
      split
      · exact ⟨id, rfl, id, rfl⟩
      · exact .refl c

theorem lapses_foldl_perform (c : MqttConnection) (calls : List SenderCall)
    (actions : List Action) : c.Lapses (actions.foldl (MqttConnection.perform calls) c) :=
  List.foldlRecOn actions _ (.refl c) fun d hd action _ =>
    hd.trans (lapses_perform d calls action)

/-- The handler of a read operation. -/
theorem lapses_onFrameRead (c : MqttConnection) : c.Lapses c.onFrameRead :=
  ⟨id, rfl, fun harmed => absurd harmed (by simp [MqttConnection.onFrameRead]),
    Timer.cancel_expired _⟩

/-- Which events start a wait, end it and give a client up. -/
structure Waits (c : MqttConnection) (event : ConnectionEvent) (c' : MqttConnection) : Prop where
  connectionArmed : c'.closeOnConnectionTimeout.armed = true →
    c.closeOnConnectionTimeout.armed = true ∧
      (c.clientId = none → c'.clientId = none ∧ ¬ event.IsAccepted)
  connectionExpired : 0 < c'.closeOnConnectionTimeout.expired →
    0 < c.closeOnConnectionTimeout.expired ∨
      event = .connectionTimerElapses ∧ c.closeOnConnectionTimeout.armed = true
  connectionTimeout : event = .connectionTimeout → 0 < c.closeOnConnectionTimeout.expired
  keepAliveArmed : c'.closeOnKeepAliveTimeout.armed = true →
    event.StartsWait ∨ event.isRead = false ∧ c.closeOnKeepAliveTimeout.armed = true
  keepAliveExpired : 0 < c'.closeOnKeepAliveTimeout.expired →
    0 < c.closeOnKeepAliveTimeout.expired ∨
      event = .keepAliveTimerElapses ∧ c.closeOnKeepAliveTimeout.armed = true
  keepAliveTimeout : event = .keepAliveTimeout → 0 < c.closeOnKeepAliveTimeout.expired

/-- The actions do not matter. -/
theorem Waits.lapses {c'' : MqttConnection} (h : c.Waits event c') (hlapses : c'.Lapses c'')
    (hclient : c''.clientId = c'.clientId) : c.Waits event c'' where
  connectionArmed harmed := by
    rw [hclient]
    exact h.connectionArmed (hlapses.connectionArmed harmed)
  connectionExpired hexpired := h.connectionExpired (hlapses.connectionExpired ▸ hexpired)
  connectionTimeout := h.connectionTimeout
  keepAliveArmed harmed := h.keepAliveArmed (hlapses.keepAliveArmed harmed)
  keepAliveExpired hexpired := h.keepAliveExpired (hlapses.keepAliveExpired ▸ hexpired)
  keepAliveTimeout := h.keepAliveTimeout

/-- An event that neither starts nor ends a wait. -/
theorem Lapses.waits (h : c.Lapses c') (hclient : c'.clientId = c.clientId)
    (haccepted : c.clientId = none → ¬ event.IsAccepted)
    (hread : event.isRead = true → c'.closeOnKeepAliveTimeout.armed = false)
    (hconnection : event ≠ .connectionTimeout) (hkeepAlive : event ≠ .keepAliveTimeout) :
    c.Waits event c' where
  connectionArmed harmed := ⟨h.connectionArmed harmed, fun hnone =>
    ⟨hclient.trans hnone, haccepted hnone⟩⟩
  connectionExpired hexpired := Or.inl (h.connectionExpired ▸ hexpired)
  connectionTimeout he := absurd he hconnection
  keepAliveArmed harmed := by
    refine Or.inr ⟨?_, h.keepAliveArmed harmed⟩
    rw [Bool.eq_false_iff]
    intro hisRead
    rw [hread hisRead] at harmed
    cases harmed
  keepAliveExpired hexpired := Or.inl (h.keepAliveExpired ▸ hexpired)
  keepAliveTimeout he := absurd he hkeepAlive

/-- A frame that has been read, other than an accepted CONNECT. -/
theorem waits_onFrameRead (haccepted : c.clientId = none → ¬ event.IsAccepted)
    (hisRead : event.isRead = true) : c.Waits event c.onFrameRead := by
  refine (lapses_onFrameRead c).waits rfl haccepted (fun _ => Timer.cancel_armed _) ?_ ?_ <;>
    rintro rfl <;> cases hisRead

/-- An accepted CONNECT. -/
theorem waits_connected (c : MqttConnection) (connect : Connect) :
    c.Waits (.received (.connect connect) true) (c.onFrameRead.connected connect) := by
  have htimer : (c.onFrameRead.connected connect).closeOnConnectionTimeout =
      c.closeOnConnectionTimeout.cancel := by
    unfold MqttConnection.connected
    split <;> rfl
  refine ⟨?_, ?_, (fun he => by cases he), ?_, ?_, (fun he => by cases he)⟩
  · rw [htimer, Timer.cancel_armed]
    intro harmed
    cases harmed
  · rw [htimer, Timer.cancel_expired]
    exact Or.inl
  · intro harmed
    unfold MqttConnection.connected at harmed
    split at harmed
    · rename_i hsecs
      exact Or.inl <| Or.inl ⟨connect, rfl, hsecs⟩
    · exact absurd harmed (by simp [MqttConnection.onFrameRead])
  · intro hexpired
    unfold MqttConnection.connected at hexpired
    split at hexpired
    · exact Or.inl (by simpa [startKeepAlive, MqttConnection.onFrameRead] using hexpired)
    · exact Or.inl (by simpa [MqttConnection.onFrameRead] using hexpired)

/-- What an event does to the waits. -/
theorem waits_of_handle (h : c.handle event = some (.ok (c', actions))) : c.Waits event c' := by
  -- an event that reads nothing and leaves the timers alone
  have hquiet : ∀ {event : ConnectionEvent} {c' : MqttConnection}, event.isRead = false →
      event ≠ .connectionTimeout → event ≠ .keepAliveTimeout →
        c'.clientId = c.clientId →
        c'.closeOnConnectionTimeout = c.closeOnConnectionTimeout →
          c'.closeOnKeepAliveTimeout = c.closeOnKeepAliveTimeout → c.Waits event c' := by
    intro event c' hread hconnection hkeepAlive hclient hct hka
    have hlapses : c.Lapses c' :=
      ⟨fun harmed => hct ▸ harmed, by rw [hct], fun harmed => hka ▸ harmed, by rw [hka]⟩
    refine hlapses.waits hclient ?_ (fun hisRead => ?_) hconnection hkeepAlive
    · rintro - ⟨connect, rfl⟩
      cases hread
    · rw [hread] at hisRead
      cases hisRead
  cases event with
  | frameArrives =>
      simp only [handle] at h
      split at h
      · cases h
        exact hquiet rfl (by simp) (by simp) rfl rfl rfl
      · cases h
  | received packet authenticated =>
      simp only [handle] at h
      split at h
      · rw [Option.some.injEq] at h
        obtain ⟨-, ⟨rfl, hrefused⟩ | ⟨connect, rfl, rfl, -, -, rfl⟩⟩ :=
          cases_of_processDecodedPacket h
        · refine waits_onFrameRead ?_ rfl
          rintro hnone ⟨connect, haccepted⟩
          cases haccepted
          exact absurd (hrefused hnone connect rfl) (by simp)
        · exact waits_connected c connect
      · cases h
  | malformed =>
      simp only [handle] at h
      split at h
      · cases h
        refine waits_onFrameRead ?_ rfl
        rintro - ⟨connect, haccepted⟩
        cases haccepted
      · cases h
  | readFailed ec =>
      simp only [handle] at h
      have hread : c.Waits (.readFailed ec) c.onFrameRead := by
        refine waits_onFrameRead ?_ rfl
        rintro - ⟨connect, haccepted⟩
        cases haccepted
      split at h
      · cases ec with
        | operationAborted =>
            simp only at h
            split at h
            · cases h
            · cases h
              exact hread
        | other message =>
            cases h
            exact hread
      · cases h
  | written i ok =>
      simp only [handle] at h
      split at h
      · cases h
        exact hquiet rfl (by simp) (by simp) rfl rfl rfl
      · cases h
  | connectionTimerElapses =>
      simp only [handle, Option.map_eq_some_iff] at h
      obtain ⟨timer, htimer, h⟩ := h
      cases h
      obtain ⟨harmed, rfl⟩ := Timer.expire_eq_some_iff.mp htimer
      exact
        { connectionArmed := fun harmed => by cases harmed
          connectionExpired := fun _ => Or.inr ⟨rfl, harmed⟩
          connectionTimeout := fun he => by cases he
          keepAliveArmed := fun harmed => Or.inr ⟨rfl, harmed⟩
          keepAliveExpired := Or.inl
          keepAliveTimeout := fun he => by cases he }
  | connectionTimeout =>
      simp only [handle, Option.map_eq_some_iff] at h
      obtain ⟨timer, htimer, h⟩ := h
      cases h
      obtain ⟨hqueued, rfl⟩ := Timer.takeExpired_eq_some_iff.mp htimer
      exact
        { connectionArmed := fun harmed =>
            ⟨harmed, fun hnone => ⟨hnone, by rintro ⟨_, he⟩; cases he⟩⟩
          connectionExpired := fun _ => Or.inl hqueued
          connectionTimeout := fun _ => hqueued
          keepAliveArmed := fun harmed => Or.inr ⟨rfl, harmed⟩
          keepAliveExpired := Or.inl
          keepAliveTimeout := fun he => by cases he }
  | connectionTimerAborted =>
      simp only [handle, Option.map_eq_some_iff] at h
      obtain ⟨timer, htimer, h⟩ := h
      cases h
      obtain ⟨-, rfl⟩ := Timer.takeAborted_eq_some_iff.mp htimer
      exact Lapses.waits ⟨id, rfl, id, rfl⟩ rfl (by rintro - ⟨connect, he⟩; cases he)
        (fun hread => by cases hread) (by simp) (by simp)
  | keepAliveTimerElapses =>
      simp only [handle, Option.map_eq_some_iff] at h
      obtain ⟨timer, htimer, h⟩ := h
      cases h
      obtain ⟨harmed, rfl⟩ := Timer.expire_eq_some_iff.mp htimer
      exact
        { connectionArmed := fun harmed =>
            ⟨harmed, fun hnone => ⟨hnone, by rintro ⟨_, he⟩; cases he⟩⟩
          connectionExpired := Or.inl
          connectionTimeout := fun he => by cases he
          keepAliveArmed := fun harmed => by cases harmed
          keepAliveExpired := fun _ => Or.inr ⟨rfl, harmed⟩
          keepAliveTimeout := fun he => by cases he }
  | keepAliveTimeout =>
      simp only [handle, Option.map_eq_some_iff] at h
      obtain ⟨timer, htimer, h⟩ := h
      cases h
      obtain ⟨hqueued, rfl⟩ := Timer.takeExpired_eq_some_iff.mp htimer
      exact
        { connectionArmed := fun harmed =>
            ⟨harmed, fun hnone => ⟨hnone, by rintro ⟨_, he⟩; cases he⟩⟩
          connectionExpired := Or.inl
          connectionTimeout := fun he => by cases he
          keepAliveArmed := fun harmed => Or.inr ⟨rfl, harmed⟩
          keepAliveExpired := fun _ => Or.inl hqueued
          keepAliveTimeout := fun _ => hqueued }
  | keepAliveTimerAborted =>
      simp only [handle, Option.map_eq_some_iff] at h
      obtain ⟨timer, htimer, h⟩ := h
      cases h
      obtain ⟨-, rfl⟩ := Timer.takeAborted_eq_some_iff.mp htimer
      refine ⟨?_, ?_, (fun he => by cases he), fun _ => Or.inl <| Or.inr rfl, ?_,
        (fun he => by cases he)⟩
      · intro harmed
        refine ⟨?_, fun hnone => ⟨?_, by rintro ⟨_, he⟩; cases he⟩⟩
        · split at harmed
          · rwa [closeOnConnectionTimeout_startKeepAlive] at harmed
          · exact harmed
        · split
          · rw [clientId_startKeepAlive]
            exact hnone
          · exact hnone
      · intro hexpired
        split at hexpired
        · rw [closeOnConnectionTimeout_startKeepAlive] at hexpired
          exact Or.inl hexpired
        · exact Or.inl hexpired
      · intro hexpired
        split at hexpired
        · rw [expired_startKeepAlive] at hexpired
          exact Or.inl hexpired
        · exact Or.inl hexpired

/-- What an input does to the waits, if it is an event. -/
theorem waits_of_react {input : ConnectionInput}
    (h : c.react input = some (.ok (actions, c'))) :
    (input.handled = none ∧ c.Lapses c' ∧ c'.clientId = c.clientId) ∨
      ∃ event, input.handled = some event ∧ c.Waits event c' := by
  cases input with
  | call call =>
      cases h
      refine Or.inl ⟨rfl, ?_, clientId_applyCall call⟩
      cases call with
      | send => exact lapses_write c .keeps
      | stop => exact lapses_doStop c
  | event event calls =>
      obtain ⟨result, hhandle, hresult⟩ := Option.map_eq_some_iff.mp h
      cases result with
      | error failure => cases hresult
      | ok answer =>
          cases hresult
          exact Or.inr ⟨event, rfl, (waits_of_handle hhandle).lapses
            (lapses_foldl_perform _ calls _) (clientId_foldl_perform calls _)⟩

end MqttConnection

/-- What the waits of a connection tell about what has happened to it. -/
structure Justified (events : List ConnectionEvent) (c : MqttConnection) : Prop where
  connectionArmed : c.closeOnConnectionTimeout.armed = true →
    c.clientId = none ∧ ∀ e ∈ events, ¬ e.IsAccepted
  connectionExpired : 0 < c.closeOnConnectionTimeout.expired → TooLate events
  connectionTimeout : ∀ pre post, events = pre ++ .connectionTimeout :: post → TooLate pre
  keepAliveArmed : c.closeOnKeepAliveTimeout.armed = true → Silent events
  keepAliveExpired : 0 < c.closeOnKeepAliveTimeout.expired → GivenUp events
  keepAliveTimeout : ∀ pre post, events = pre ++ .keepAliveTimeout :: post → GivenUp pre

/-- A list that ends in an element is split in front of it or further in front. -/
theorem eq_append_cons_cases {α : Type*} {xs pre post : List α} {x y : α}
    (h : xs ++ [x] = pre ++ y :: post) :
    (xs = pre ∧ x = y) ∨ ∃ post', xs = pre ++ y :: post' := by
  rcases List.eq_nil_or_concat post with rfl | ⟨post', z, rfl⟩
  · obtain ⟨hxs, hx⟩ := List.append_inj' h rfl
    exact Or.inl ⟨hxs, List.singleton_inj.mp hx⟩
  · have hsplit : xs ++ [x] = (pre ++ y :: post') ++ [z] := by rw [h]; simp
    exact Or.inr ⟨post', (List.append_inj' hsplit rfl).1⟩

/-- An event keeps the waits justified. -/
theorem Justified.append {c c' : MqttConnection} (h : Justified events c)
    (hwaits : c.Waits event c') : Justified (events ++ [event]) c' where
  connectionArmed harmed := by
    obtain ⟨hbefore, hnone⟩ := hwaits.connectionArmed harmed
    obtain ⟨hclient, hevents⟩ := h.connectionArmed hbefore
    refine ⟨(hnone hclient).1, fun e he => ?_⟩
    rcases List.mem_append.mp he with he | he
    · exact hevents e he
    · rw [List.mem_singleton.mp he]
      exact (hnone hclient).2
  connectionExpired hexpired := by
    rcases hwaits.connectionExpired hexpired with hbefore | ⟨rfl, harmed⟩
    · exact (h.connectionExpired hbefore).append
    · exact ⟨events, [], rfl, (h.connectionArmed harmed).2⟩
  connectionTimeout pre post hsplit := by
    rcases eq_append_cons_cases hsplit with ⟨rfl, he⟩ | ⟨post', hbefore⟩
    · exact h.connectionExpired (hwaits.connectionTimeout he)
    · exact h.connectionTimeout pre post' hbefore
  keepAliveArmed harmed := by
    rcases hwaits.keepAliveArmed harmed with hstart | ⟨hquiet, hbefore⟩
    · exact ⟨events, event, [], rfl, hstart, fun e he => absurd he List.not_mem_nil⟩
    · exact (h.keepAliveArmed hbefore).append hquiet
  keepAliveExpired hexpired := by
    rcases hwaits.keepAliveExpired hexpired with hbefore | ⟨rfl, harmed⟩
    · exact (h.keepAliveExpired hbefore).append
    · exact ⟨events, [], rfl, h.keepAliveArmed harmed⟩
  keepAliveTimeout pre post hsplit := by
    rcases eq_append_cons_cases hsplit with ⟨rfl, he⟩ | ⟨post', hbefore⟩
    · exact h.keepAliveExpired (hwaits.keepAliveTimeout he)
    · exact h.keepAliveTimeout pre post' hbefore

/-- What starts no wait keeps the waits justified. -/
theorem Justified.lapses {c c' : MqttConnection} (h : Justified events c)
    (hlapses : c.Lapses c') (hclient : c'.clientId = c.clientId) : Justified events c' where
  connectionArmed harmed := by
    rw [hclient]
    exact h.connectionArmed (hlapses.connectionArmed harmed)
  connectionExpired hexpired := h.connectionExpired (hlapses.connectionExpired ▸ hexpired)
  connectionTimeout := h.connectionTimeout
  keepAliveArmed harmed := h.keepAliveArmed (hlapses.keepAliveArmed harmed)
  keepAliveExpired hexpired := h.keepAliveExpired (hlapses.keepAliveExpired ▸ hexpired)
  keepAliveTimeout := h.keepAliveTimeout

/-- A connection that has just been started waits for a CONNECT. -/
theorem justified_started : Justified [] .started where
  connectionArmed _ := ⟨rfl, fun e he => absurd he List.not_mem_nil⟩
  connectionExpired hexpired := absurd hexpired (Nat.lt_irrefl 0)
  connectionTimeout pre post hsplit := by cases pre <;> cases hsplit
  keepAliveArmed harmed := by cases harmed
  keepAliveExpired hexpired := absurd hexpired (Nat.lt_irrefl 0)
  keepAliveTimeout pre post hsplit := by cases pre <;> cases hsplit

/-- After every run a timeout that has been handled is due to a whole wait in which no handler of a
read operation has run, or in which no CONNECT has been accepted. -/
theorem justified_of_run {steps : List ConnectionStep} {c : MqttConnection}
    (hrun : connectionMachine.Run (some .started) steps (some c)) :
    Justified (eventsOf steps) c := by
  refine hrun.alive_invariant (fun _ => rfl) (fun _ => True)
    (fun steps c => Justified (eventsOf steps) c) justified_started ?_ (fun _ _ => trivial)
  rintro pre t input o u - ht hstep -
  obtain ⟨actions, hreact, -⟩ := Machine.ofFallible_step_alive_iff.mp hstep
  rw [eventsOf_append, eventsOf_singleton]
  rcases MqttConnection.waits_of_react hreact with
    ⟨hnone, hlapses, hclient⟩ | ⟨event, hsome, hwaits⟩
  · rw [hnone, Option.toList_none, List.append_nil]
    exact ht.lapses hlapses hclient
  · rw [hsome, Option.toList_some]
    exact ht.append hwaits

end Connection
end WallyIo
