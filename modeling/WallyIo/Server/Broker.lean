import WallyIo.Dispatch.BrokerRefinement
import WallyIo.Dispatch.FanOut
import WallyIo.Server.Conversation

/-!
# The server as a broker

Seen from its clients, the server is a broker: it delivers what is published to those who have
subscribed to it, and what is retained to those who subscribe.  To whom it delivers what is
told by the packets that have been received before.

Main results:

- Theorem {lit}`refines_of_run`: in every run the server delivers what a broker delivers, and
  everything else that it publishes has been delivered before.
- Theorem {lit}`published_of_run` and {lit}`lastWill_of_run`: to whom a packet or a last will is
  delivered.
- Theorem {lit}`retained_of_run`: what is delivered to a client that subscribes.
-/

namespace WallyIo
namespace Server

open Protocol
open Library
open Connection
open Codec
open Dispatch
open TxTable (SameContent)

/-! ## What comes in -/

/-- What comes in does not become too long for any subscriber, be it a packet or the last will of a
client that connects. -/
def ServerEvent.Fits : ServerEvent → Prop
  | .connection _ (.received (.publish p) _) => Dispatch.Fits p .exactlyOnce
  | .connection _ (.received (.connect connect) _) =>
      ∀ lwtPublish, carriedWill connect = some lwtPublish → Dispatch.Fits lwtPublish .exactlyOnce
  | _ => True

section Decoded

variable {buffer : Bytes} {frame : Frame} (k : ConnectionId) (authenticated : Bool)

/-- A PUBLISH that has been decoded fits unless it has no packet identifier and is almost as long as
a packet can be. -/
theorem fits_iff_of_decodePublish (hend : frame.endPos ≤ buffer.length)
    (hlength : frame.remainingLength ≤ 268435455) {p : Publish}
    (h : decodePublish buffer frame = .ok (.publish p)) :
    (ServerEvent.connection k (.received (.publish p) authenticated)).Fits ↔
      (p.qos = .atMostOnce → p.remainingLength.toNat ≤ 268435453) := by
  rw [ServerEvent.Fits, fits_iff (encodable_of_decodePublish hend hlength h)]
  simp

/-- A CONNECT that has been decoded fits, since last wills are short. -/
theorem fits_of_decodeConnect (hend : frame.endPos ≤ buffer.length) {connect : Connect}
    (h : decodeConnect buffer frame = .ok (.connect connect)) :
    (ServerEvent.connection k (.received (.connect connect) authenticated)).Fits := by
  intro lwtPublish hwill
  rw [← lastWill_clientConnected 0] at hwill
  obtain ⟨htopic, hmessage, -⟩ := lastWill_short hend h hwill
  obtain ⟨hpresent, rfl⟩ := MqttClientSession.lastWill_eq_some hwill
  generalize hlwt : Publish.create false connect.lastWillQos false (connect.lastWillTopic hpresent)
    0x0000 (connect.lastWillMessage hpresent) = lwtPublish at htopic hmessage ⊢
  have hannounced : Announced lwtPublish := hlwt ▸ announced_create _ _ _ _ _ _
  have hlength : bodyLength lwtPublish .exactlyOnce ≤ 268435455 := by
    simp only [bodyLength, reduceCtorEq, if_false]
    omega
  exact ⟨encodable_publish_iff.mpr ⟨htopic, hannounced,
    (bodyLength_le_exactlyOnce lwtPublish _).trans hlength⟩, hlength⟩

end Decoded

namespace MqttServer

/-! ## What the session manager is asked to do -/

/-- The event that the session manager processes while a handler of a connection runs, if any, and
the client of the connection then. -/
def asked (k : ConnectionId) (c : MqttConnection) (e : ConnectionEvent) :
    Option (Bytes × SessionManager.Event) :=
  match c.clientId with
  | some x =>
      match c.closeReason e with
      | some reason => some (x, disconnectEvent x reason)
      | none =>
          match e with
          | .received packet _ =>
              (SessionManager.handlePacketReceived ⟨x, packet, .notADisconnect⟩ k).toOption.map
                fun event => (x, event)
          | _ => none
  | none =>
      match e with
      | .received (.connect connect) true =>
          some (connect.clientId, .clientConnected connect k)
      | _ => none

/-- The event that the session manager processes in an event of the server, if any, and the
connections that it sees then. -/
def managed (server : MqttServer) (kept : ConnectionId → Bool) :
    ServerEvent → Option (Connections × SessionManager.Event)
  | .connection k e =>
      (server.connections[k]?.bind fun c => asked k c e).map fun (x, event) =>
        (server.viewFrom kept k x, event)
  | .session event => if isInternal event then some (server.view kept, event) else none
  | .accepted | .stopAll => none

/-- What the session manager does. -/
def effectsOf (outputs : List Output) : List Effect :=
  outputs.filterMap fun
    | .effect effect => some effect
    | .write _ _ => none

variable {server after : MqttServer} {kept : ConnectionId → Bool} {outputs : List Output}
  {k : ConnectionId} {e : ConnectionEvent} {event : ServerEvent} {packet : MqttPacket}
  {authenticated : Bool} {c : MqttConnection} {x : Bytes}

theorem effectsOf_writes (hwrites : ∀ output ∈ outputs, IsWrite k output) :
    effectsOf outputs = [] := by
  rw [effectsOf, List.filterMap_eq_nil_iff]
  intro output hmem
  obtain ⟨packet, rfl⟩ := hwrites output hmem
  rfl

theorem effectsOf_split (effects : List Effect) {writes : List Output}
    (hwrites : ∀ output ∈ writes, IsWrite k output) :
    effectsOf (effects.map .effect ++ writes) = effects := by
  have hrest : writes.filterMap _ = [] := effectsOf_writes hwrites
  rw [effectsOf, List.filterMap_append, hrest, List.append_nil, List.filterMap_map]
  exact List.filterMap_some

/-- A packet that a known client may send does not close the connection. -/
theorem closeReason_of_type (hconnect : packet.type ≠ .connect)
    (hdisconnect : packet.type ≠ .disconnect) :
    c.closeReason (.received packet authenticated) = none := by
  cases hreason : c.closeReason (.received packet authenticated) with
  | none => rfl
  | some reason =>
      rcases closing_packet hreason with rfl | ⟨connect, rfl, -⟩
      · exact absurd rfl hdisconnect
      · exact absurd rfl hconnect

/-- A packet of a known client that does not close the connection is neither a CONNECT nor a
DISCONNECT. -/
theorem type_of_closeReason (hclient : c.clientId = some x)
    (hreason : c.closeReason (.received packet authenticated) = none) :
    packet.type ≠ .connect ∧ packet.type ≠ .disconnect := by
  cases packet with
  | connect connect =>
      rw [MqttConnection.closeReason, hclient] at hreason
      cases hreason
  | disconnect => cases hreason
  | publishAck ack => cases ack <;> simp [MqttPacket.type, PublishAck.type]
  | connack | publish | subscribe | suback | unsubscribe | unsuback | pingreq | pingresp =>
      simp [MqttPacket.type]

/-- A connection that closes tells so. -/
theorem asked_of_closeReason {reason : DisconnectReason} (hclient : c.clientId = some x)
    (hreason : c.closeReason e = some reason) :
    asked k c e = some (x, disconnectEvent x reason) := by
  simp only [asked, hclient, hreason]

/-- If its client is not known, it has nothing to tell. -/
theorem asked_of_unknown {reason : DisconnectReason} (hclient : c.clientId = none)
    (hreason : c.closeReason e = some reason) : asked k c e = none := by
  simp only [asked, hclient]
  split
  · simp only [MqttConnection.closeReason, hclient] at hreason
    cases hreason
  · rfl

/-- A packet of a known client is handed over. -/
theorem asked_of_received (hclient : c.clientId = some x)
    (hreason : c.closeReason (.received packet authenticated) = none) :
    asked k c (.received packet authenticated) =
      (SessionManager.handlePacketReceived ⟨x, packet, .notADisconnect⟩ k).toOption.map
        fun event => (x, event) := by
  simp only [asked, hclient, hreason]

/-- A connection that answers by itself does not ask. -/
theorem asked_of_quiet (hreason : c.closeReason e = none)
    (halone : MqttConnection.AnsweredAlone e) : asked k c e = none := by
  cases e with
  | received packet authenticated =>
      cases hclient : c.clientId with
      | some x =>
          rw [asked_of_received hclient hreason]
          rcases halone packet authenticated rfl with ⟨htype, -⟩ | htype
          · exact absurd htype (type_of_closeReason hclient hreason).1
          · cases packet with
            | pingreq => rfl
            | publishAck ack => cases ack <;> cases htype
            | connect | connack | publish | subscribe | suback | unsubscribe | unsuback | pingresp
            | disconnect => cases htype
      | none =>
          simp only [asked, hclient]
          rcases halone packet authenticated rfl with ⟨-, rfl⟩ | htype
          · cases packet <;> rfl
          · cases packet with
            | connect connect => cases htype
            | connack | publish | publishAck | subscribe | suback | unsubscribe | unsuback
            | pingreq | pingresp | disconnect => rfl
  | frameArrives | malformed | readFailed | written | connectionTimerElapses | connectionTimeout
  | connectionTimerAborted | keepAliveTimerElapses | keepAliveTimeout | keepAliveTimerAborted =>
      simp only [asked, hreason]
      cases c.clientId <;> rfl

/-- The session manager does what it is asked to do, and nothing else. -/
theorem perform_of_outcome (h : server.Outcome kept event outputs after) :
    (server.managed kept event = none ∧ after.sessionManager = server.sessionManager ∧
        effectsOf outputs = []) ∨
      ∃ connections managerEvent, server.managed kept event = some (connections, managerEvent) ∧
        server.sessionManager.perform connections managerEvent =
          some (.ok (effectsOf outputs, after.sessionManager)) := by
  have hmanaged : ∀ {k c e}, server.connections[k]? = some c →
      server.managed kept (.connection k e) = (asked k c e).map fun (x, event) =>
        (server.viewFrom kept k x, event) := by
    intro k c e hc
    rw [managed, hc, Option.bind_some]
  cases h with
  | accepted _ hclient hopen hmanager => exact Or.inl ⟨rfl, hmanager, rfl⟩
  | stoppedAll _ hcloses hmanager => exact Or.inl ⟨rfl, hmanager, rfl⟩
  | quiet k e c _ _ hc hreason halone hcloses hmanager hwrites =>
      refine Or.inl ⟨?_, hmanager, effectsOf_writes hwrites⟩
      rw [hmanaged hc, asked_of_quiet hreason halone, Option.map_none]
  | connected k connect c _ _ hc hclientId hisOpen hperform hclient hopen hwrites =>
      refine Or.inr ⟨server.viewFrom kept k connect.clientId, .clientConnected connect k, ?_, ?_⟩
      · rw [hmanaged hc]
        simp only [asked, hclientId]
        rfl
      · rw [effectsOf_writes hwrites]
        exact hperform
  | handedOver k packet authenticated c clientId managerEvent effects _ _ hc hclientId hconnect
      hdisconnect hevent hperform hcloses hwrites =>
      refine Or.inr ⟨server.viewFrom kept k clientId, managerEvent, ?_, ?_⟩
      · rw [hmanaged hc,
          asked_of_received hclientId (closeReason_of_type hconnect hdisconnect), hevent]
        rfl
      · rw [effectsOf_split effects hwrites]
        exact hperform
  | closed k e c clientId reason effects _ _ hc hclientId hreason hperform hcloses hwrites =>
      refine Or.inr ⟨server.viewFrom kept k clientId, disconnectEvent clientId reason, ?_, ?_⟩
      · rw [hmanaged hc, asked_of_closeReason hclientId hreason]
        rfl
      · rw [effectsOf_split effects hwrites]
        exact hperform
  | closedUnknown k e c reason _ _ hc hclientId hreason hcloses hmanager hwrites =>
      refine Or.inl ⟨?_, hmanager, effectsOf_writes hwrites⟩
      rw [hmanaged hc, asked_of_unknown hclientId hreason]
      rfl
  | session managerEvent effects _ hinternal hperform hcloses =>
      refine Or.inr ⟨server.view kept, managerEvent, ?_, ?_⟩
      · rw [managed, if_pos hinternal]
      · have hnone : ∀ output ∈ ([] : List Output), IsWrite 0 output :=
          fun _ hmem => absurd hmem List.not_mem_nil
        have hsplit := effectsOf_split effects hnone
        rw [List.append_nil] at hsplit
        rw [hsplit]
        exact hperform

/-! ## What can be seen of a run -/

/-- The connections that a packet reaches: they exist, and they are open. -/
def reaches (server : MqttServer) (connections : Connections) (k : ConnectionId) : Prop :=
  SessionManager.reachable connections k ∧ server.isOpenAt k = true

/-- What is done on behalf of what a client has sent or left behind. -/
def handedBy (server : MqttServer) (kept : ConnectionId → Bool) (event : ServerEvent)
    (outputs : List Output) : List Effect :=
  match server.managed kept event with
  | some (_, managerEvent) => if managerEvent.hands then effectsOf outputs else []
  | none => []

/-- What can be seen of the broker in a step. -/
def observed : ServerStep → List BrokerObservation
  | ⟨some server, (kept, event), .ok outputs, _⟩ =>
      match server.managed kept event with
      | some (connections, managerEvent) =>
          (server.sessionManager.actions connections managerEvent).map
              (.input (server.reaches connections)) ++
            (deliveries (server.handedBy kept event (server.carriedOut outputs))).map .output
      | none => []
  | _ => []

/-- What is carried out in a step on behalf of what a client has sent or left behind. -/
def handedIn : ServerStep → List Effect
  | ⟨some server, (kept, event), .ok outputs, _⟩ =>
      server.handedBy kept event (server.carriedOut outputs)
  | _ => []

/-- What the steps so far have sent for the first time. -/
def SentBy (steps : List ServerStep) (x : Bytes) (k : ConnectionId) (p : Publish) : Prop :=
  ∃ step ∈ steps, SessionManager.SendsIn (handedIn step) x k p

variable {connections : Connections} {managerEvent : SessionManager.Event}
  {t : Option MqttServer}

theorem handedBy_of_managed
    (h : server.managed kept event = some (connections, managerEvent)) (outputs : List Output) :
    server.handedBy kept event outputs =
      if managerEvent.hands then effectsOf outputs else [] := by
  simp only [handedBy, h]

theorem observed_of_managed
    (h : server.managed kept event = some (connections, managerEvent)) :
    observed ⟨some server, (kept, event), .ok outputs, t⟩ =
      (server.sessionManager.actions connections managerEvent).map
          (.input (server.reaches connections)) ++
        (deliveries (server.handedBy kept event (server.carriedOut outputs))).map .output := by
  simp only [observed, h]

theorem observed_of_not_managed (h : server.managed kept event = none) :
    observed ⟨some server, (kept, event), .ok outputs, t⟩ = [] := by
  simp only [observed, h]

theorem mem_effectsOf_iff {effect : Effect} :
    effect ∈ effectsOf outputs ↔ .effect effect ∈ outputs := by
  rw [effectsOf, List.mem_filterMap]
  constructor
  · rintro ⟨output, hmem, heq⟩
    cases output with
    | write k packet => cases heq
    | effect other =>
        cases heq
        exact hmem
  · exact fun hmem => ⟨_, hmem, rfl⟩

/-- A packet is sent if its connection is open. -/
theorem sendsIn_carriedOut_iff {p : Publish} :
    SessionManager.SendsIn (effectsOf (server.carriedOut outputs)) x k p ↔
      SessionManager.SendsIn (effectsOf outputs) x k p ∧ server.isOpenAt k = true := by
  rw [SessionManager.SendsIn, SessionManager.SendsIn, mem_effectsOf_iff, mem_effectsOf_iff,
    carriedOut, List.mem_filter]
  rfl

/-- The deliveries on open connections are carried out. -/
theorem deliveries_carriedOut (server : MqttServer) (outputs : List Output) :
    deliveries (effectsOf (server.carriedOut outputs)) =
      (deliveries (effectsOf outputs)).filter fun d => server.isOpenAt d.endpoint := by
  have hcomplete : ∀ outputs, deliveries (effectsOf outputs) = outputs.filterMap fun
      | .effect effect => effect.publication.map fun e => deliveryOf e.1 e.2.1 e.2.2
      | .write _ _ => none := by
    intro outputs
    rw [deliveries, effectsOf, List.filterMap_filterMap, List.map_filterMap]
    apply List.filterMap_congr
    intro output _
    cases output <;> rfl
  rw [hcomplete, hcomplete, carriedOut, List.filterMap_filter, List.filter_filterMap]
  apply List.filterMap_congr
  intro output _
  cases output with
  | write j packet => cases hopen : server.isOpenAt j <;> simp [Output.getsThrough, hopen]
  | effect effect =>
      cases effect with
      | publish p => rfl
      | call y j call =>
          cases call with
          | stop message => rfl
          | send packet =>
              cases hopen : server.isOpenAt j <;> cases packet <;>
                simp [Output.getsThrough, Effect.publication, deliveryOf, Option.filter_some, hopen]

/-- What is handed in is sent. -/
theorem sendsIn_of_handedBy {p : Publish}
    (h : SessionManager.SendsIn (server.handedBy kept event outputs) x k p) :
    SessionManager.SendsIn (effectsOf outputs) x k p := by
  unfold handedBy at h
  split at h
  · split at h
    · exact h
    · cases h
  · cases h

/-- What is handed in is sent if its connection is open. -/
theorem sendsIn_handedBy_carriedOut_iff {p : Publish} :
    SessionManager.SendsIn (server.handedBy kept event (server.carriedOut outputs)) x k p ↔
      SessionManager.SendsIn (server.handedBy kept event outputs) x k p ∧
        server.isOpenAt k = true := by
  have hnothing : SessionManager.SendsIn [] x k p ↔
      SessionManager.SendsIn [] x k p ∧ server.isOpenAt k = true := by
    simp [SessionManager.SendsIn]
  unfold handedBy
  split
  · split
    · exact sendsIn_carriedOut_iff
    · exact hnothing
  · exact hnothing

/-- What can be seen of the session manager can be seen of the server, on open connections. -/
theorem observed_eq_seenOn (h : server.managed kept event = some (connections, managerEvent)) :
    observed ⟨some server, (kept, event), .ok outputs, t⟩ =
      (server.sessionManager.observed connections managerEvent (effectsOf outputs)).filterMap
        (Broker.seenOn server.isOpenAt) := by
  rw [observed_of_managed h, SessionManager.observed, List.filterMap_append,
    Broker.filterMap_seenOn_inputs, Broker.filterMap_seenOn_outputs, handedBy_of_managed h]
  cases managerEvent.hands with
  | true =>
      rw [if_pos rfl, if_pos rfl, deliveries_carriedOut]
      rfl
  | false => rfl

/-- A step of the server is a sequence of actions of the broker. -/
theorem refines_of_outcome (h : server.Outcome kept event outputs after) :
    Trace (Broker.Acts conventions) server.sessionManager.broker
      (observed ⟨some server, (kept, event), .ok outputs, some after⟩)
        after.sessionManager.broker := by
  rcases perform_of_outcome h with ⟨hnone, hmanager, -⟩ | ⟨connections, e, hmanaged, hperform⟩
  · rw [observed_of_not_managed hnone, hmanager]
    exact Trace.nil _
  · rw [observed_eq_seenOn hmanaged]
    exact Broker.trace_seenOn server.isOpenAt (SessionManager.refines_of_perform hperform)

/-- What a step sends it sends for the first time, or it has been sent before. -/
theorem backed_of_outcome {sent : Bytes → ConnectionId → Publish → Prop}
    (hbacked : SessionManager.Backed sent server.sessionManager)
    (h : server.Outcome kept event outputs after) :
    SessionManager.Backed (fun x k p =>
          sent x k p ∨ SessionManager.SendsIn (server.handedBy kept event outputs) x k p)
        after.sessionManager ∧
      ∀ x k p, SessionManager.SendsIn (effectsOf outputs) x k p →
        SessionManager.SendsIn (server.handedBy kept event outputs) x k p ∨
          ∃ first, sent x k first ∧ SameContent first p := by
  rcases perform_of_outcome h with
    ⟨-, hmanager, hnone⟩ | ⟨connections, e, hmanaged, hperform⟩
  · rw [hmanager, hnone]
    exact ⟨hbacked.mono fun _ _ _ hsent => Or.inl hsent,
      fun _ _ _ hmem => absurd hmem List.not_mem_nil⟩
  · obtain ⟨hafter, hrepeated⟩ := SessionManager.backed_of_perform hbacked hperform
    rw [handedBy_of_managed hmanaged]
    cases hhands : e.hands with
    | true =>
        rw [hhands] at hafter
        refine ⟨hafter.mono fun x k p hsent => hsent.imp_right And.right, ?_⟩
        exact fun x k p hmem => Or.inl hmem
    | false =>
        rw [hhands] at hafter
        refine ⟨hafter.mono fun x k p hsent => hsent.imp_right fun hsent => ?_, ?_⟩
        · exact absurd hsent.1 Bool.false_ne_true
        · exact fun x k p hmem => Or.inr (hrepeated hhands x k p hmem)

variable {steps : List ServerStep} {maxRetries : Nat}

/-- The actions of the steps lead the broker to where it is. -/
theorem trace_of_run (h : machine.Run (some (create maxRetries)) steps (some server)) :
    Trace (Broker.Acts conventions) Broker.empty (steps.flatMap observed)
      server.sessionManager.broker := by
  refine run_invariant (fun steps server => Trace (Broker.Acts conventions) Broker.empty
    (steps.flatMap observed) server.sessionManager.broker) ?_ ?_ h rfl
  · have hempty : (create maxRetries).sessionManager.broker = Broker.empty := by
      rw [SessionManager.broker, Broker.empty]
      congr 1
      · ext s
        exact iff_of_false List.not_mem_nil (fun hmem => hmem)
      · ext e
        exact iff_of_false List.not_mem_nil (fun hmem => hmem)
    rw [hempty]
    exact Trace.nil _
  · intro pre server kept event outputs after hpre htrace houtcome
    rw [List.flatMap_append, List.flatMap_singleton]
    exact htrace.append (refines_of_outcome houtcome)

/-- A connection has been accepted and closed. -/
structure ClosedAt (server : MqttServer) (k : ConnectionId) : Prop where
  accepted : k < server.connections.length
  closed : server.isOpenAt k = false

theorem isSome_clientOf_iff :
    (server.clientOf k).isSome = true ↔ k < server.connections.length := by
  simp [clientOf]

/-- A connection that has been closed stays closed. -/
theorem ClosedAt.of_outcome (hclosed : server.ClosedAt k)
    (h : server.Outcome kept event outputs after) : after.ClosedAt k := by
  have hsome := isSome_clientOf_iff.mpr hclosed.accepted
  cases change_of_outcome h with
  | closes closed hcloses =>
      refine ⟨isSome_clientOf_iff.mp (hcloses.clientOf k ▸ hsome), ?_⟩
      rw [hcloses.isOpenAt, hclosed.closed, Bool.false_and]
  | accepted hclient hopen =>
      have hne : k ≠ server.connections.length := hclosed.accepted.ne
      refine ⟨isSome_clientOf_iff.mp ?_, ?_⟩
      · rw [hclient, if_neg hne]
        exact hsome
      · rw [hopen, hclosed.closed, Bool.or_false, decide_eq_false hne]
  | connected hc hclientId hisOpen hclient hopen =>
      refine ⟨isSome_clientOf_iff.mp ?_, (hopen k).trans hclosed.closed⟩
      rw [hclient]
      split
      · rfl
      · exact hsome

/-- What is in flight has been sent, unless the connection has been closed. -/
theorem backed_of_run (h : machine.Run (some (create maxRetries)) steps (some server)) :
    SessionManager.Backed (fun x k p => SentBy steps x k p ∨ server.ClosedAt k)
      server.sessionManager := by
  refine run_invariant (fun steps server =>
    SessionManager.Backed (fun x k p => SentBy steps x k p ∨ server.ClosedAt k)
      server.sessionManager) ?_ ?_ h rfl
  · constructor
    · intro x entry hentry
      cases hentry
    · intro x entry hentry
      cases hentry
  · intro pre server kept event outputs after hpre hbacked houtcome
    refine (backed_of_outcome hbacked houtcome).1.mono ?_
    rintro x k p ((⟨step, hmem, hsent⟩ | hclosed) | hsent)
    · exact Or.inl ⟨step, List.mem_append_left _ hmem, hsent⟩
    · exact Or.inr (hclosed.of_outcome houtcome)
    · have hcalled := mem_effectsOf_iff.mp (sendsIn_of_handedBy hsent)
      obtain ⟨connect, haccepted, -⟩ := acceptedOn_of_call hpre houtcome hcalled
      cases hopen : server.isOpenAt k with
      | true =>
          exact Or.inl ⟨_, List.mem_append_right _ (List.mem_singleton_self _),
            sendsIn_handedBy_carriedOut_iff.mpr ⟨hsent, hopen⟩⟩
      | false =>
          have hsome : (server.clientOf k).isSome = true := by
            rw [clientOf_of_acceptedOn hpre haccepted]
            rfl
          exact Or.inr (ClosedAt.of_outcome ⟨isSome_clientOf_iff.mp hsome, hopen⟩ houtcome)

/-- No packet that has come from an accepted client becomes too long. -/
theorem fits_of_authentic {source : Publish} (hfits : ∀ step ∈ steps, step.event.2.Fits)
    (h : Authentic steps source) : Dispatch.Fits source .exactlyOnce := by
  cases h with
  | published k connect pre post step authenticated hsteps haccepted hevent =>
      have hstep := hfits step (hsteps ▸ List.mem_append_right _ List.mem_cons_self)
      rw [hevent] at hstep
      exact hstep
  | lastWill k connect haccepted hwill =>
      obtain ⟨before, kept, outputs, after, hmem, -⟩ := haccepted
      exact hfits _ hmem source hwill

/-- What holds of all steps holds of the steps up to one of them. -/
theorem fits_of_split {pre post : List ServerStep} {step : ServerStep}
    (hfits : ∀ step ∈ steps, step.event.2.Fits) (hsteps : steps = pre ++ step :: post) :
    ∀ earlier ∈ pre ++ [step], earlier.event.2.Fits := by
  intro earlier hmem
  have hprefix : pre ++ [step] <+: pre ++ step :: post := ⟨post, by simp⟩
  exact hfits earlier (hsteps ▸ hprefix.subset hmem)

/-- If nothing that comes in becomes too long, the encoder accepts every PUBLISH that is sent. -/
theorem encoded_of_run {pre post : List ServerStep} {step : ServerStep}
    (h : machine.Run (some (create maxRetries)) steps t) (hsteps : steps = pre ++ step :: post)
    (houtput : step.output = .ok outputs)
    (hfits : ∀ earlier ∈ pre ++ [step], earlier.event.2.Fits) :
    SessionManager.Encoded (effectsOf outputs) := by
  obtain ⟨hpre, hstep, -⟩ := h.split hsteps
  obtain ⟨before, e, o, after⟩ := step
  cases before with
  | none => cases hstep
  | some server =>
      cases houtput
      rcases Machine.ofFallible_step_some hstep with
        ⟨failure, -, ho, -⟩ | ⟨outputs', after, hperform, ho, rfl⟩
      · cases ho
      · cases ho
        intro x k p hmem
        have hstems := (stems_of_outcome hpre (stems_of_serverRun hpre)
          (outcome_of_perform hperform)).2 k p (mem_effectsOf_iff.mp hmem)
        exact ⟨_, encoding_eq (hstems.encodable fun source => fits_of_authentic hfits)⟩

/-- A server refines a broker. -/
structure RefinesBroker (steps : List ServerStep) (server : MqttServer) : Prop where
  /-- What is handed to the sessions is what the broker delivers. -/
  delivers : Trace (Broker.Acts conventions) Broker.empty (steps.flatMap observed)
    server.sessionManager.broker
  /-- Everything else repeats what has been sent to the same client on the same connection. -/
  repeats : ∀ pre kept event outputs post before after,
    steps = pre ++ ⟨some before, (kept, event), .ok outputs, after⟩ :: post →
      ∀ x k p, .effect (.call x k (.send (.publish p))) ∈ before.carriedOut outputs →
        SessionManager.SendsIn (handedIn ⟨some before, (kept, event), .ok outputs, after⟩) x k p ∨
          ∃ first, SentBy pre x k first ∧ SameContent first p
  /-- The encoder accepts every PUBLISH. -/
  encoded : ∀ step ∈ steps, ∀ outputs, step.output = .ok outputs →
    SessionManager.Encoded (effectsOf outputs)

/-- In every run the server delivers what a broker delivers, and everything else that it publishes
it has published before, provided that no packet becomes too long. -/
theorem refines_of_run (h : machine.Run (some (create maxRetries)) steps (some server))
    (hfits : ∀ step ∈ steps, step.event.2.Fits) : RefinesBroker steps server := by
  refine ⟨trace_of_run h, ?_, ?_⟩
  · intro pre kept event outputs post before after hsteps x k p hmem
    obtain ⟨before', after', hstep, hpre, hperformed, -⟩ := h.alive_split (fun _ => rfl) hsteps
    cases hstep
    obtain ⟨outputs', houtput, houtcome⟩ := outcome_of_step hperformed
    cases houtput
    obtain ⟨hsent, hopen⟩ := sendsIn_carriedOut_iff.mp (mem_effectsOf_iff.mpr hmem)
    rcases (backed_of_outcome (backed_of_run hpre) houtcome).2 x k p hsent with
      hnew | ⟨first, hsent | hclosed, hsame⟩
    · exact Or.inl (sendsIn_handedBy_carriedOut_iff.mpr ⟨hnew, hopen⟩)
    · exact Or.inr ⟨first, hsent, hsame⟩
    · rw [hclosed.closed] at hopen
      cases hopen
  · intro step hmem outputs houtput
    obtain ⟨pre, post, hsteps⟩ := List.append_of_mem hmem
    exact encoded_of_run h hsteps houtput (fits_of_split hfits hsteps)

/-- A client with a last will has a message retained.  Another client subscribes and is delivered
it, then one that is not retained, and at last the last will of the former. -/
def brokerEvents : List ((ConnectionId → Bool) × ServerEvent) :=
  [(fun _ => false, .accepted), (fun _ => false, .accepted)] ++
    receives 0 (.connect willConnect) ++
    receives 1 (.connect (SessionManager.sampleConnect [0x79])) ++
    receives 0 (.publish (.create false .atMostOnce true [0x61] 0 [0x01])) ++
    receives 1 (.subscribe ⟨6, 1, [⟨[0x61], .atMostOnce, SessionManager.wellFormed_letter⟩]⟩) ++
    receives 0 (.publish (.create false .atMostOnce false [0x61] 0 [0x02])) ++
    [(fun _ => false, .connection 0 .frameArrives), (fun _ => false, .connection 0 .malformed)]

/-- The run of these events. -/
def brokerRun : Option (List ServerStep × Option MqttServer) :=
  machine.exec (some (create 3)) brokerEvents

theorem brokerRun_isSome : brokerRun.isSome = true := rfl

/-- A short packet fits. -/
theorem fits_create {qos : QoS} {retain : Bool} {topic applicationMessage : Bytes}
    (htopic : topic.length ≤ 1) (hmessage : applicationMessage.length ≤ 1) :
    Dispatch.Fits (.create false qos retain topic 0 applicationMessage) .exactlyOnce := by
  have hbody : bodyLength (.create false qos retain topic 0 applicationMessage) .exactlyOnce ≤
      268435455 := by
    simp only [bodyLength, Publish.create, reduceCtorEq, if_false]
    omega
  have hencodable : Encodable (.publish (.create false qos retain topic 0 applicationMessage)) :=
    encodable_publish_iff.mpr ⟨htopic.trans (by decide), announced_create _ _ _ _ _ _,
      (bodyLength_le_exactlyOnce _ _).trans hbody⟩
  exact ⟨hencodable, hbody⟩

/-- A packet is received if it fits. -/
theorem fits_receives (h : (ServerEvent.connection k (.received packet true)).Fits) :
    ∀ e ∈ receives k packet, e.2.Fits := by
  intro e hmem
  rcases List.mem_cons.mp hmem with rfl | hmem
  · trivial
  · cases List.mem_singleton.mp hmem
    exact h

theorem fits_brokerEvents : ∀ e ∈ brokerEvents, e.2.Fits := by
  have hconnect : ∀ (k : ConnectionId) (connect : Connect), (∀ lwtPublish,
      carriedWill connect = some lwtPublish → Dispatch.Fits lwtPublish .exactlyOnce) →
        ∀ e ∈ receives k (.connect connect), e.2.Fits := fun k connect hwill => fits_receives hwill
  have hpublish : ∀ (k : ConnectionId) retain message, message.length ≤ 1 →
      ∀ e ∈ receives k (.publish (.create false .atMostOnce retain [0x61] 0 message)), e.2.Fits :=
    fun k retain message hmessage => fits_receives (fits_create (by decide) hmessage)
  simp only [brokerEvents, List.forall_mem_append]
  refine ⟨⟨⟨⟨⟨⟨?_, hconnect 0 _ ?_⟩, hconnect 1 _ ?_⟩, hpublish 0 true [0x01] (by decide)⟩,
    fits_receives trivial⟩, hpublish 0 false [0x02] (by decide)⟩, ?_⟩
  · simp [ServerEvent.Fits]
  · intro lwtPublish hwill
    cases hwill
    exact fits_create (by decide) (by decide)
  · intro lwtPublish hwill
    cases hwill
  · simp [ServerEvent.Fits]

/-- None of the packets of the run is long. -/
theorem fits_brokerRun : ∀ step ∈ (brokerRun.get brokerRun_isSome).1, step.event.2.Fits := by
  intro step hmem
  have hevents := Machine.events_of_exec (Option.some_get brokerRun_isSome).symm
  exact fits_brokerEvents _ (hevents ▸ List.mem_map_of_mem hmem)

/-- The three messages of the run are all that is delivered. -/
theorem refines_of_run_broker : ∃ steps server,
    machine.Run (some (create 3)) steps (some server) ∧
      steps.flatMap (fun step => deliveries (handedIn step)) =
        [⟨[0x79], 1, [0x61], [0x01], .atMostOnce, true⟩,
          ⟨[0x79], 1, [0x61], [0x02], .atMostOnce, false⟩,
          ⟨[0x79], 1, [0x61], [0x62], .atMostOnce, false⟩] ∧ RefinesBroker steps server := by
  have hrun : machine.Run (some (create 3)) (brokerRun.get brokerRun_isSome).1
      (brokerRun.get brokerRun_isSome).2 := Machine.run_exec (Option.some_get brokerRun_isSome).symm
  have hlast : ∃ server, (brokerRun.get brokerRun_isSome).2 = some server := ⟨_, rfl⟩
  obtain ⟨server, hserver⟩ := hlast
  rw [hserver] at hrun
  exact ⟨_, server, hrun, rfl, refines_of_run hrun fits_brokerRun⟩

/-! ## What clients have sent -/

/-- A packet of a client is received in a step. -/
def Receives (x : Bytes) (packet : MqttPacket) (step : ServerStep) : Prop :=
  ∃ server kept k authenticated outputs, step.before = some server ∧
    step.event = (kept, .connection k (.received packet authenticated)) ∧
      step.output = .ok outputs ∧ server.clientOf k = some (some x)

/-- A client subscribes to a filter. -/
def SubscribesTo (x topicFilter : Bytes) (qos : QoS) (step : ServerStep) : Prop :=
  ∃ subscribe, Receives x (.subscribe subscribe) step ∧ (topicFilter, qos) ∈ requestsOf subscribe

/-- Some client unsubscribes from a filter. -/
def UnsubscribesFrom (topicFilter : Bytes) (step : ServerStep) : Prop :=
  ∃ x unsubscribe, Receives x (.unsubscribe unsubscribe) step ∧
    topicFilter ∈ unsubscribe.topicFilters

/-- Some client that has a session has a message retained. -/
def Retains (topic applicationMessage : Bytes) (step : ServerStep) : Prop :=
  ∃ x p server, Receives x (.publish p) step ∧ p.retain = true ∧ p.topic = topic ∧
    p.applicationMessage = applicationMessage ∧ step.before = some server ∧
      (server.sessionConnection x).isSome = true

theorem eq_ok_of_toOption {α ε : Type} {result : Except ε α} {a : α}
    (h : result.toOption = some a) : result = .ok a := by
  cases result with
  | error failure => cases h
  | ok b =>
      cases h
      rfl

/-- Packets of known clients are handed over. -/
theorem managed_of_received (hclient : server.clientOf k = some (some x))
    (hconnect : packet.type ≠ .connect) (hdisconnect : packet.type ≠ .disconnect)
    (hevent : SessionManager.handlePacketReceived ⟨x, packet, .notADisconnect⟩ k =
      .ok managerEvent) :
    server.managed kept (.connection k (.received packet authenticated)) =
      some (server.viewFrom kept k x, managerEvent) := by
  obtain ⟨c, hc, hclientId⟩ := Option.map_eq_some_iff.mp hclient
  rw [managed, hc, Option.bind_some,
    asked_of_received hclientId (closeReason_of_type hconnect hdisconnect), hevent]
  rfl

/-- What is handed over has been received from its client. -/
theorem received_of_managed (h : server.managed kept event = some (connections, managerEvent))
    (hrequest : managerEvent.request = some packet) :
    ∃ k x authenticated, event = .connection k (.received packet authenticated) ∧
      server.clientOf k = some (some x) ∧ managerEvent.client = some x ∧
        connections = server.viewFrom kept k x := by
  have hdisconnectEvent : ∀ x reason, (disconnectEvent x reason).request = none := by
    intro x reason
    rw [disconnectEvent]
    split <;> rfl
  cases event with
  | accepted | stopAll => cases h
  | session event =>
      obtain ⟨hinternal, heq⟩ := Option.ite_none_right_eq_some.mp h
      cases heq
      cases managerEvent with
      | clientSubscribed | clientUnsubscribed | clientPublished | clientAcked => cases hinternal
      | clientConnected | clientDisconnected | clientDisconnectedUngracefully | destroy
      | txTimerElapses | txTimeout | rxTimerElapses | rxTimeout | subscriptionsReordered
      | messagesReordered => cases hrequest
  | connection k e =>
      obtain ⟨⟨x, event⟩, hasked, heq⟩ := Option.map_eq_some_iff.mp h
      cases heq
      obtain ⟨c, hc, hasked⟩ := Option.bind_eq_some_iff.mp hasked
      cases hclient : c.clientId with
      | none =>
          simp only [asked, hclient] at hasked
          split at hasked
          · cases hasked
            cases hrequest
          · cases hasked
      | some y =>
          cases hreason : c.closeReason e with
          | some reason =>
              rw [asked_of_closeReason hclient hreason] at hasked
              cases hasked
              rw [hdisconnectEvent] at hrequest
              cases hrequest
          | none =>
              cases e with
              | received packet' authenticated =>
                  rw [asked_of_received hclient hreason] at hasked
                  obtain ⟨event', hevent, heq⟩ := Option.map_eq_some_iff.mp hasked
                  cases heq
                  obtain ⟨hconnect, hdisconnect⟩ := type_of_closeReason hclient hreason
                  obtain ⟨hx, hpacket, -⟩ := request_of_handedOver hconnect hdisconnect c
                    authenticated (eq_ok_of_toOption hevent)
                  rw [hrequest] at hpacket
                  cases hpacket
                  exact ⟨k, x, authenticated, rfl, (clientOf_eq hc).trans (congrArg some hclient),
                    hx, rfl⟩
              | frameArrives | malformed | readFailed | written | connectionTimerElapses
              | connectionTimeout | connectionTimerAborted | keepAliveTimerElapses
              | keepAliveTimeout | keepAliveTimerAborted =>
                  simp only [asked, hclient, hreason] at hasked
                  cases hasked

/-- A packet of a client is received exactly if the session manager is asked to process it. -/
theorem receives_iff
    (hevent : ∀ k, SessionManager.handlePacketReceived ⟨x, packet, .notADisconnect⟩ k =
      .ok managerEvent)
    (hclient : managerEvent.client = some x) (hrequest : managerEvent.request = some packet) :
    Receives x packet ⟨some server, (kept, event), .ok outputs, t⟩ ↔
      ∃ connections, server.managed kept event = some (connections, managerEvent) := by
  have htype : packet.type ≠ .connect ∧ packet.type ≠ .disconnect := by
    cases managerEvent with
    | clientAcked y ack =>
        cases hrequest
        cases ack <;> simp [MqttPacket.type, PublishAck.type]
    | clientSubscribed | clientUnsubscribed | clientPublished =>
        cases hrequest
        simp [MqttPacket.type]
    | clientConnected | clientDisconnected | clientDisconnectedUngracefully | destroy
    | txTimerElapses | txTimeout | rxTimerElapses | rxTimeout | subscriptionsReordered
    | messagesReordered => cases hrequest
  constructor
  · rintro ⟨server', kept', k, authenticated, outputs', hbefore, hreceived, -, hknown⟩
    cases hbefore
    cases hreceived
    exact ⟨_, managed_of_received hknown htype.1 htype.2 (hevent k)⟩
  · rintro ⟨connections, hmanaged⟩
    obtain ⟨k, y, authenticated, rfl, hknown, hy, -⟩ := received_of_managed hmanaged hrequest
    rw [hclient] at hy
    cases hy
    exact ⟨server, kept, k, authenticated, outputs, rfl, rfl, rfl, hknown⟩

/-- What a broker is told in a step. -/
theorem mem_inputs_observed_iff {a : BrokerAction} :
    a ∈ Broker.inputs (observed ⟨some server, (kept, event), .ok outputs, t⟩) ↔
      ∃ connections managerEvent, server.managed kept event = some (connections, managerEvent) ∧
        a ∈ server.sessionManager.actions connections managerEvent := by
  cases hmanaged : server.managed kept event with
  | none =>
      rw [observed_of_not_managed hmanaged]
      simp [Broker.inputs]
  | some asked =>
      obtain ⟨connections, e⟩ := asked
      rw [observed_of_managed hmanaged, Broker.inputs_append, Broker.inputs_inputs,
        Broker.inputs_output, List.append_nil]
      constructor
      · exact fun hmem => ⟨connections, e, rfl, hmem⟩
      · rintro ⟨connections', e', heq, hmem⟩
        cases heq
        exact hmem

/-- Nothing but the first action of a step changes subscriptions or what is kept. -/
theorem mem_tail_inputs_observed {a : BrokerAction}
    (h : a ∈ (Broker.inputs (observed ⟨some server, (kept, event), .ok outputs, t⟩)).tail) :
    (∃ y, a = .leave y) ∨ ∃ topic applicationMessage, a = .publish topic applicationMessage := by
  cases hmanaged : server.managed kept event with
  | none =>
      rw [observed_of_not_managed hmanaged] at h
      cases h
  | some asked =>
      obtain ⟨connections, e⟩ := asked
      rw [observed_of_managed hmanaged, Broker.inputs_append, Broker.inputs_inputs,
        Broker.inputs_output, List.append_nil] at h
      exact SessionManager.told_of_mem_tail h

/-- A broker is told of a subscription when a client subscribes. -/
theorem told_subscribe_iff {topicFilter : Bytes} {qos : QoS} :
    (∃ a ∈ Broker.inputs (observed ⟨some server, (kept, event), .ok outputs, t⟩),
        ∃ requests, a = .subscribe x requests ∧ (topicFilter, qos) ∈ requests) ↔
      SubscribesTo x topicFilter qos ⟨some server, (kept, event), .ok outputs, t⟩ := by
  have hreceives : ∀ subscribe,
      Receives x (.subscribe subscribe) ⟨some server, (kept, event), .ok outputs, t⟩ ↔
        ∃ connections,
          server.managed kept event = some (connections, .clientSubscribed x subscribe) :=
    fun subscribe => receives_iff (fun _ => rfl) rfl rfl
  constructor
  · rintro ⟨a, hmem, requests, rfl, hrequested⟩
    obtain ⟨connections, e, hmanaged, hmem⟩ := mem_inputs_observed_iff.mp hmem
    obtain ⟨subscribe, rfl, rfl⟩ := SessionManager.subscribe_mem_actions_iff.mp hmem
    exact ⟨subscribe, (hreceives subscribe).mpr ⟨connections, hmanaged⟩, hrequested⟩
  · rintro ⟨subscribe, hreceived, hrequested⟩
    obtain ⟨connections, hmanaged⟩ := (hreceives subscribe).mp hreceived
    exact ⟨_, mem_inputs_observed_iff.mpr ⟨connections, _, hmanaged,
      SessionManager.subscribe_mem_actions_iff.mpr ⟨subscribe, rfl, rfl⟩⟩, _, rfl, hrequested⟩

/-- A broker is told of the end of subscriptions when some client unsubscribes. -/
theorem told_unsubscribe_iff {topicFilter : Bytes} :
    (∃ a ∈ Broker.inputs (observed ⟨some server, (kept, event), .ok outputs, t⟩),
        ∃ filters, a = .unsubscribe filters ∧ topicFilter ∈ filters) ↔
      UnsubscribesFrom topicFilter ⟨some server, (kept, event), .ok outputs, t⟩ := by
  have hreceives : ∀ x unsubscribe,
      Receives x (.unsubscribe unsubscribe) ⟨some server, (kept, event), .ok outputs, t⟩ ↔
        ∃ connections,
          server.managed kept event = some (connections, .clientUnsubscribed x unsubscribe) :=
    fun x unsubscribe => receives_iff (fun _ => rfl) rfl rfl
  constructor
  · rintro ⟨a, hmem, filters, rfl, hfilter⟩
    obtain ⟨connections, e, hmanaged, hmem⟩ := mem_inputs_observed_iff.mp hmem
    obtain ⟨x, unsubscribe, rfl, rfl⟩ := SessionManager.unsubscribe_mem_actions_iff.mp hmem
    exact ⟨x, unsubscribe, (hreceives x unsubscribe).mpr ⟨connections, hmanaged⟩, hfilter⟩
  · rintro ⟨x, unsubscribe, hreceived, hfilter⟩
    obtain ⟨connections, hmanaged⟩ := (hreceives x unsubscribe).mp hreceived
    exact ⟨_, mem_inputs_observed_iff.mpr ⟨connections, _, hmanaged,
      SessionManager.unsubscribe_mem_actions_iff.mpr ⟨x, unsubscribe, rfl, rfl⟩⟩, _, rfl, hfilter⟩

/-- A broker is told to keep what a client has retained. -/
theorem told_keep_iff {topic applicationMessage : Bytes} :
    .keep topic applicationMessage ∈
        Broker.inputs (observed ⟨some server, (kept, event), .ok outputs, t⟩) ↔
      Retains topic applicationMessage ⟨some server, (kept, event), .ok outputs, t⟩ := by
  have hreceives : ∀ x p,
      Receives x (.publish p) ⟨some server, (kept, event), .ok outputs, t⟩ ↔
        ∃ connections, server.managed kept event = some (connections, .clientPublished x p) :=
    fun x p => receives_iff (fun _ => rfl) rfl rfl
  rw [mem_inputs_observed_iff]
  constructor
  · rintro ⟨connections, e, hmanaged, hmem⟩
    obtain ⟨x, p, rfl, hretain, htopic, hmessage, hsession⟩ :=
      SessionManager.keep_mem_actions_iff.mp hmem
    refine ⟨x, p, server, (hreceives x p).mpr ⟨connections, hmanaged⟩, hretain, htopic, hmessage,
      rfl, ?_⟩
    rw [sessionConnection, Option.isSome_map]
    exact hsession
  · rintro ⟨x, p, server', hreceived, hretain, htopic, hmessage, hbefore, hsession⟩
    cases hbefore
    obtain ⟨connections, hmanaged⟩ := (hreceives x p).mp hreceived
    rw [sessionConnection, Option.isSome_map] at hsession
    exact ⟨connections, _, hmanaged, SessionManager.keep_mem_actions_iff.mpr
      ⟨x, p, rfl, hretain, htopic, hmessage, hsession⟩⟩

/-! ## What the broker knows after a run -/

/-- A client has subscribed to a filter, and no client has unsubscribed from it since. -/
def HasSubscribed (steps : List ServerStep) (x topicFilter : Bytes) (qos : QoS) : Prop :=
  LastOf (SubscribesTo x topicFilter qos) (UnsubscribesFrom topicFilter) steps

/-- A message that is not empty has been retained, and no other one for this topic since. -/
def HasRetained (steps : List ServerStep) (topic applicationMessage : Bytes) : Prop :=
  LastOf (fun step => Retains topic applicationMessage step ∧ applicationMessage ≠ [])
    (fun step => ∃ other, Retains topic other step) steps

/-- No step of a run that is going on has failed. -/
theorem step_eq_of_run (h : machine.Run (some (create maxRetries)) steps (some server))
    {step : ServerStep} (hmem : step ∈ steps) :
    ∃ before kept event outputs after,
      step = ⟨some before, (kept, event), .ok outputs, some after⟩ := by
  obtain ⟨pre, post, hsteps⟩ := List.append_of_mem hmem
  obtain ⟨before, after, hstep, -, hperformed, -⟩ := h.alive_split (fun _ => rfl) hsteps
  obtain ⟨outputs, houtput, -⟩ := outcome_of_step hperformed
  rw [houtput] at hstep
  exact ⟨before, step.event.1, step.event.2, outputs, after, hstep⟩

theorem inputs_flatMap (steps : List ServerStep) :
    Broker.inputs (steps.flatMap observed) =
      steps.flatMap fun step => Broker.inputs (observed step) :=
  List.filterMap_flatMap

/-- The broker knows of the subscriptions that clients have asked for. -/
theorem subscribed_iff (h : machine.Run (some (create maxRetries)) steps (some server))
    (topicFilter : Bytes) (qos : QoS) :
    Broker.Subscribed (Broker.inputs (steps.flatMap observed)) x topicFilter qos ↔
      HasSubscribed steps x topicFilter qos := by
  rw [Broker.Subscribed, HasSubscribed, inputs_flatMap, lastOf_flatMap_iff]
  apply lastOf_congr
  · intro step hmem
    obtain ⟨before, kept, event, outputs, after, rfl⟩ := step_eq_of_run h hmem
    rw [lastOf_iff_exists]
    · exact told_subscribe_iff
    · rintro later hlater ⟨filters, rfl, -⟩
      rcases mem_tail_inputs_observed hlater with ⟨y, heq⟩ | ⟨topic, message, heq⟩ <;> cases heq
  · intro step hmem
    obtain ⟨before, kept, event, outputs, after, rfl⟩ := step_eq_of_run h hmem
    exact told_unsubscribe_iff

/-- The broker keeps the messages that clients have retained. -/
theorem kept_iff (h : machine.Run (some (create maxRetries)) steps (some server))
    (topic applicationMessage : Bytes) :
    Broker.Kept conventions (Broker.inputs (steps.flatMap observed)) topic applicationMessage ↔
      HasRetained steps topic applicationMessage := by
  rw [Broker.Kept, HasRetained, inputs_flatMap, lastOf_flatMap_iff]
  apply lastOf_congr
  · intro step hmem
    obtain ⟨before, kept, event, outputs, after, rfl⟩ := step_eq_of_run h hmem
    rw [lastOf_iff_exists, ← told_keep_iff]
    · constructor
      · rintro ⟨a, hmem, rfl, hblank⟩
        exact ⟨hmem, hblank⟩
      · rintro ⟨hmem, hblank⟩
        exact ⟨_, hmem, rfl, hblank⟩
    · rintro later hlater ⟨message, rfl⟩
      rcases mem_tail_inputs_observed hlater with ⟨y, heq⟩ | ⟨_, _, heq⟩ <;> cases heq
  · intro step hmem
    obtain ⟨before, kept, event, outputs, after, rfl⟩ := step_eq_of_run h hmem
    constructor
    · rintro ⟨a, hmem, message, rfl⟩
      exact ⟨message, told_keep_iff.mp hmem⟩
    · rintro ⟨message, hretains⟩
      exact ⟨_, told_keep_iff.mpr hretains, message, rfl⟩

/-! ## Who is delivered what -/

/-- A message is due to a client that has subscribed to its topic and that the server can reach on
an open connection. -/
structure Due (server : MqttServer) (connections : Connections) (steps : List ServerStep)
    (topic applicationMessage : Bytes) (d : BrokerDelivery) : Prop where
  session : server.sessionConnection d.client = some d.endpoint
  reaches : server.reaches connections d.endpoint
  /-- The best quality of service that it has asked for and not given up. -/
  level : IsGreatest {qos | ∃ topicFilter, topicFilterMatchesTopic topicFilter topic = true ∧
    HasSubscribed steps d.client topicFilter qos} d.level
  served : d.level ≠ .reserved
  topic : d.topic = topic
  message : d.message = applicationMessage
  wasKept : d.wasKept = false

/-- A retained message is due to a client that subscribes to its topic and that the server can reach
on an open connection. -/
structure RetainedDue (server : MqttServer) (connections : Connections) (steps : List ServerStep)
    (x : Bytes) (subscribe : Subscribe) (d : BrokerDelivery) : Prop where
  client : d.client = x
  wasKept : d.wasKept = true
  session : server.sessionConnection x = some d.endpoint
  reaches : server.reaches connections d.endpoint
  retained : HasRetained steps d.topic d.message
  level : IsGreatest {qos | ∃ topicFilter, topicFilterMatchesTopic topicFilter d.topic = true ∧
    (topicFilter, qos) ∈ requestsOf subscribe} d.level
  served : d.level ≠ .reserved

/-- A client has a packet forwarded unless it has no session, or the session knows the packet
already. -/
def Forwards (server : MqttServer) (x : Bytes) (p : Publish) : Prop :=
  ∃ entry, server.sessionManager.sessions.lookup x = some entry ∧
    entry.session.rxInFlightPublications.publications.contains p.packetIdentifier = false

/-- A client that goes has a last will. -/
def HasLastWill (server : MqttServer) (x : Bytes) (lwtPublish : Publish) : Prop :=
  ∃ entry, server.sessionManager.sessions.lookup x = some entry ∧
    entry.session.lastWill = some lwtPublish

/-- What the broker owes after a run is due. -/
theorem owes_publish_iff_due (h : machine.Run (some (create maxRetries)) steps (some server))
    {topic applicationMessage : Bytes} {d : BrokerDelivery} :
    server.sessionManager.broker.Owes conventions (server.reaches connections)
        (.publish topic applicationMessage) d ↔
      server.Due connections steps topic applicationMessage d := by
  rw [Broker.owes_publish_iff (trace_of_run h)]
  simp only [subscribed_iff h]
  constructor
  · rintro ⟨htopic, hmessage, hkept, hsession, hreachable, hlevel, hserved⟩
    exact ⟨hsession, hreachable, hlevel, hserved, htopic, hmessage, hkept⟩
  · intro hdue
    exact ⟨hdue.topic, hdue.message, hdue.wasKept, hdue.session, hdue.reaches, hdue.level,
      hdue.served⟩

theorem owes_subscribe_iff_due (h : machine.Run (some (create maxRetries)) steps (some server))
    {subscribe : Subscribe} {d : BrokerDelivery} :
    server.sessionManager.broker.Owes conventions (server.reaches connections)
        (.subscribe x (requestsOf subscribe)) d ↔
      server.RetainedDue connections steps x subscribe d := by
  rw [Broker.owes_subscribe_iff (trace_of_run h), kept_iff h]
  constructor
  · rintro ⟨hclient, hkept, hsession, hreachable, hretained, hlevel, hserved⟩
    exact ⟨hclient, hkept, hsession, hreachable, hretained, hlevel, hserved⟩
  · intro hdue
    exact ⟨hdue.client, hdue.wasKept, hdue.session, hdue.reaches, hdue.retained, hdue.level,
      hdue.served⟩

/-- The outputs of a step deliver what is due, each once, and nothing else.  The encoder accepts
what is sent. -/
structure Delivers (server : MqttServer) (outputs : List Output) (due : BrokerDelivery → Prop) :
    Prop where
  nodup : (deliveries (effectsOf (server.carriedOut outputs))).Nodup
  mem_iff : ∀ d, d ∈ deliveries (effectsOf (server.carriedOut outputs)) ↔ due d
  encoded : SessionManager.Encoded (effectsOf outputs)

/-- Nothing is delivered if nothing is due. -/
theorem Delivers.of_nothing {due : BrokerDelivery → Prop}
    (hnone : deliveries (effectsOf (server.carriedOut outputs)) = [])
    (hencoded : SessionManager.Encoded (effectsOf outputs)) (hdue : ∀ d, ¬ due d) :
    server.Delivers outputs due where
  nodup := hnone ▸ List.nodup_nil
  mem_iff d := by
    rw [hnone]
    exact iff_of_false List.not_mem_nil (hdue d)
  encoded := hencoded

/-- What is delivered in a step is owed in the last of its actions. -/
theorem deliveries_of_actions (h : server.Outcome kept event outputs after)
    (hmanaged : server.managed kept event = some (connections, managerEvent))
    (hhands : managerEvent.hands = true) (first : List BrokerAction) {last : BrokerAction}
    (hactions : server.sessionManager.actions connections managerEvent = first ++ [last]) :
    (deliveries (effectsOf (server.carriedOut outputs))).Nodup ∧
      ∀ d, d ∈ deliveries (effectsOf (server.carriedOut outputs)) ↔
        Broker.Owes conventions (server.reaches connections)
          (first.foldl (Broker.next conventions) server.sessionManager.broker) last d := by
  have htrace := refines_of_outcome h
  rw [observed_of_managed hmanaged, handedBy_of_managed hmanaged, hhands, if_pos rfl, hactions,
    List.map_append, List.map_singleton, List.append_assoc, List.singleton_append] at htrace
  exact Broker.deliveries_of_trace htrace

/-- If nothing is owed, nothing is delivered. -/
theorem deliveries_eq_nil (h : server.Outcome kept event outputs after)
    (hmanaged : server.managed kept event = some (connections, managerEvent))
    (hhands : managerEvent.hands = true)
    (hquiet : ∀ a ∈ server.sessionManager.actions connections managerEvent, ∀ b d,
      ¬ Broker.Owes conventions (server.reaches connections) b a d) :
    deliveries (effectsOf (server.carriedOut outputs)) = [] := by
  have htrace := refines_of_outcome h
  rw [observed_of_managed hmanaged, handedBy_of_managed hmanaged, hhands, if_pos rfl] at htrace
  exact Broker.deliveries_of_quiet hquiet htrace

/-- A client that takes its leave has nothing delivered. -/
theorem deliveries_of_graceful {reason : DisconnectReason}
    (h : server.Outcome kept event outputs after)
    (hmanaged : server.managed kept event = some (connections, .clientDisconnected x reason)) :
    deliveries (effectsOf (server.carriedOut outputs)) = [] := by
  have hnone : effectsOf outputs = [] := by
    rcases perform_of_outcome h with ⟨hnot, -⟩ | ⟨connections, e, hasked, hperform⟩
    · rw [hmanaged] at hnot
      cases hnot
    · rw [hmanaged] at hasked
      cases hasked
      simp only [SessionManager.perform, Option.some.injEq, Except.ok.injEq,
        Prod.mk.injEq] at hperform
      exact hperform.1.symm
  rw [deliveries_carriedOut, hnone]
  rfl

/-- The steps before a step that has not failed lead to where it starts. -/
theorem outcome_of_run {pre post : List ServerStep} {step : ServerStep}
    (h : machine.Run (some (create maxRetries)) steps t) (hsteps : steps = pre ++ step :: post)
    (hbefore : step.before = some server) (hevent : step.event = (kept, event))
    (houtput : step.output = .ok outputs) :
    machine.Run (some (create maxRetries)) pre (some server) ∧
      ∃ after, server.Outcome kept event outputs after := by
  obtain ⟨hpre, hstep, -⟩ := h.split hsteps
  rw [hbefore] at hpre
  rw [hbefore, hevent, houtput] at hstep
  rcases Machine.ofFallible_step_some hstep with
    ⟨failure, -, ho, -⟩ | ⟨outputs', after, hperform, ho, -⟩
  · cases ho
  · cases ho
    exact ⟨hpre, after, outcome_of_perform hperform⟩

/-- When a PUBLISH of a client is received, it is delivered to everybody to whom it is due, once,
unless it is a copy. -/
theorem published_of_run {pre post : List ServerStep} {step : ServerStep} {p : Publish}
    (h : machine.Run (some (create maxRetries)) steps t) (hsteps : steps = pre ++ step :: post)
    (hbefore : step.before = some server)
    (hevent : step.event = (kept, .connection k (.received (.publish p) authenticated)))
    (houtput : step.output = .ok outputs) (hclient : server.clientOf k = some (some x))
    (hfits : ∀ earlier ∈ pre ++ [step], earlier.event.2.Fits) :
    server.Delivers outputs fun d => server.Forwards x p ∧
      server.Due (server.viewFrom kept k x) pre p.topic p.applicationMessage d := by
  obtain ⟨hpre, after, houtcome⟩ := outcome_of_run h hsteps hbefore hevent houtput
  have hencoded := encoded_of_run h hsteps houtput hfits
  have hmanaged : server.managed kept (.connection k (.received (.publish p) authenticated)) =
      some (server.viewFrom kept k x, .clientPublished x p) :=
    managed_of_received hclient (by simp [MqttPacket.type]) (by simp [MqttPacket.type]) rfl
  by_cases hforwards : server.Forwards x p
  · obtain ⟨entry, hentry, hfree⟩ := id hforwards
    have hforward : SessionManager.forwardActions entry p =
        [.publish p.topic p.applicationMessage] :=
      if_neg (by rw [hfree]; exact Bool.false_ne_true)
    generalize hfirst : (if p.retain then [.keep p.topic p.applicationMessage] else
      [] : List BrokerAction) = first
    have hactions : server.sessionManager.actions (server.viewFrom kept k x)
        (.clientPublished x p) = first ++ [.publish p.topic p.applicationMessage] := by
      simp only [SessionManager.actions, hentry, SessionManager.publishActions, hforward]
      rw [← hfirst]
      split <;> rfl
    -- whether the packet is retained does not matter to those who have subscribed before
    have hsame : (first.foldl (Broker.next conventions) server.sessionManager.broker).session =
          server.sessionManager.broker.session ∧
        (first.foldl (Broker.next conventions) server.sessionManager.broker).subscriptions =
          server.sessionManager.broker.subscriptions := by
      rw [← hfirst]
      split <;> exact ⟨rfl, rfl⟩
    obtain ⟨hnodup, howes⟩ := deliveries_of_actions houtcome hmanaged rfl first hactions
    refine ⟨hnodup, fun d => ?_, hencoded⟩
    rw [howes, Broker.owes_publish_congr hsame.1 hsame.2, owes_publish_iff_due hpre]
    exact (and_iff_right hforwards).symm
  · have hnone : deliveries (effectsOf (server.carriedOut outputs)) = [] := by
      refine deliveries_eq_nil houtcome hmanaged rfl ?_
      intro a hmem b d howes
      simp only [SessionManager.actions] at hmem
      split at hmem
      · rename_i entry hentry
        have hcopy : SessionManager.forwardActions entry p = [] := if_pos (by
          by_contra hfree
          exact hforwards ⟨entry, hentry, Bool.eq_false_iff.mpr hfree⟩)
        rw [SessionManager.publishActions, hcopy] at hmem
        split at hmem
        · cases List.mem_singleton.mp hmem
          cases howes
        · cases hmem
      · cases hmem
    exact .of_nothing hnone hencoded fun d hdue => hforwards hdue.1

/-- The second message above is due to the client that has subscribed. -/
theorem published_of_run_broker : ∃ (server : MqttServer) (pre : List ServerStep)
    (outputs : List Output),
      deliveries (effectsOf (server.carriedOut outputs)) =
        [⟨[0x79], 1, [0x61], [0x02], .atMostOnce, false⟩] ∧
      server.Delivers outputs fun d =>
        server.Forwards [0x78] (.create false .atMostOnce false [0x61] 0 [0x02]) ∧
          server.Due (server.viewFrom (fun _ => false) 0 [0x78]) pre [0x61] [0x02] d := by
  have hrun := Machine.run_exec (Option.some_get brokerRun_isSome).symm
  have hstep : ∃ (pre post : List ServerStep) (step : ServerStep) (server : MqttServer)
      (outputs : List Output), (brokerRun.get brokerRun_isSome).1 = pre ++ step :: post ∧
      step.before = some server ∧ step.event = (fun _ => false, .connection 0 (.received
        (.publish (.create false .atMostOnce false [0x61] 0 [0x02])) true)) ∧
      step.output = .ok outputs ∧ server.clientOf 0 = some (some [0x78]) ∧
        deliveries (effectsOf (server.carriedOut outputs)) =
          [⟨[0x79], 1, [0x61], [0x02], .atMostOnce, false⟩] :=
    ⟨(brokerRun.get brokerRun_isSome).1.take 11, (brokerRun.get brokerRun_isSome).1.drop 12, _, _,
      _, rfl, rfl, rfl, rfl, rfl, rfl⟩
  obtain ⟨pre, post, step, server, outputs, hsteps, hbefore, hevent, houtput, hclient,
    hdeliveries⟩ := hstep
  exact ⟨server, pre, outputs, hdeliveries, published_of_run hrun hsteps hbefore hevent houtput
    hclient (fits_of_split fits_brokerRun hsteps)⟩

/-- When a connection of a client closes, the last will of the client is delivered to everybody
else to whom it is due, unless the client has taken its leave. -/
theorem lastWill_of_run {pre post : List ServerStep} {step : ServerStep}
    {reason : DisconnectReason} (h : machine.Run (some (create maxRetries)) steps t)
    (hsteps : steps = pre ++ step :: post) (hbefore : step.before = some server)
    (hevent : step.event = (kept, .connection k e)) (houtput : step.output = .ok outputs)
    (hc : server.connections[k]? = some c) (hclient : c.clientId = some x)
    (hreason : c.closeReason e = some reason)
    (hfits : ∀ earlier ∈ pre ++ [step], earlier.event.2.Fits) :
    server.Delivers outputs fun d => ∃ lwtPublish, isUngraceful reason = true ∧
      server.HasLastWill x lwtPublish ∧ d.client ≠ x ∧
        server.Due (server.viewFrom kept k x) pre lwtPublish.topic
          lwtPublish.applicationMessage d := by
  obtain ⟨hpre, after, houtcome⟩ := outcome_of_run h hsteps hbefore hevent houtput
  have hencoded := encoded_of_run h hsteps houtput hfits
  have hmanaged : server.managed kept (.connection k e) =
      some (server.viewFrom kept k x, disconnectEvent x reason) := by
    rw [managed, hc, Option.bind_some, asked_of_closeReason hclient hreason, Option.map_some]
  by_cases hungraceful : isUngraceful reason = true
  · rw [disconnectEvent, if_pos hungraceful] at hmanaged
    by_cases hwill : ∃ lwtPublish, server.HasLastWill x lwtPublish
    · obtain ⟨lwtPublish, entry, hentry, hlwt⟩ := hwill
      have hactions : server.sessionManager.actions (server.viewFrom kept k x)
          (.clientDisconnectedUngracefully x reason) =
            [.leave x] ++ [.publish lwtPublish.topic lwtPublish.applicationMessage] := by
        simp only [SessionManager.actions, hentry, SessionManager.willActions, hlwt]
        rfl
      obtain ⟨hnodup, howes⟩ := deliveries_of_actions houtcome hmanaged rfl [.leave x] hactions
      refine ⟨hnodup, fun d => ?_, hencoded⟩
      rw [howes, List.foldl_cons, List.foldl_nil, Broker.owes_publish_leave_iff,
        owes_publish_iff_due hpre]
      constructor
      · rintro ⟨hother, hdue⟩
        exact ⟨lwtPublish, hungraceful, ⟨entry, hentry, hlwt⟩, hother, hdue⟩
      · rintro ⟨lwtPublish', -, ⟨entry', hentry', hlwt'⟩, hother, hdue⟩
        rw [hentry] at hentry'
        cases hentry'
        rw [hlwt] at hlwt'
        cases hlwt'
        exact ⟨hother, hdue⟩
    · have hnone : deliveries (effectsOf (server.carriedOut outputs)) = [] := by
        refine deliveries_eq_nil houtcome hmanaged rfl ?_
        intro a hmem b d howes
        simp only [SessionManager.actions] at hmem
        split at hmem
        · rename_i entry hentry
          have hno : SessionManager.willActions entry = [] := by
            cases hlwt : entry.session.lastWill with
            | none => simp only [SessionManager.willActions, hlwt]
            | some lwtPublish => exact absurd ⟨lwtPublish, entry, hentry, hlwt⟩ hwill
          rw [hno] at hmem
          cases List.mem_singleton.mp hmem
          cases howes
        · cases hmem
      refine .of_nothing hnone hencoded ?_
      rintro d ⟨lwtPublish, -, hlwt, -⟩
      exact hwill ⟨lwtPublish, hlwt⟩
  · rw [disconnectEvent, if_neg hungraceful] at hmanaged
    refine .of_nothing (deliveries_of_graceful houtcome hmanaged) hencoded ?_
    rintro d ⟨lwtPublish, htrue, -⟩
    exact hungraceful htrue

/-- The last will above is due to the client that is still there. -/
theorem lastWill_of_run_broker : ∃ (server : MqttServer) (pre : List ServerStep)
    (outputs : List Output),
      deliveries (effectsOf (server.carriedOut outputs)) =
        [⟨[0x79], 1, [0x61], [0x62], .atMostOnce, false⟩] ∧
      server.Delivers outputs fun d => ∃ lwtPublish, isUngraceful .protocolViolation = true ∧
        server.HasLastWill [0x78] lwtPublish ∧ d.client ≠ [0x78] ∧
          server.Due (server.viewFrom (fun _ => false) 0 [0x78]) pre lwtPublish.topic
            lwtPublish.applicationMessage d := by
  have hrun := Machine.run_exec (Option.some_get brokerRun_isSome).symm
  have hstep : ∃ (pre post : List ServerStep) (step : ServerStep) (server : MqttServer)
      (outputs : List Output) (c : MqttConnection),
      (brokerRun.get brokerRun_isSome).1 = pre ++ step :: post ∧
      step.before = some server ∧ step.event = (fun _ => false, .connection 0 .malformed) ∧
      step.output = .ok outputs ∧ server.connections[0]? = some c ∧ c.clientId = some [0x78] ∧
        deliveries (effectsOf (server.carriedOut outputs)) =
          [⟨[0x79], 1, [0x61], [0x62], .atMostOnce, false⟩] :=
    ⟨(brokerRun.get brokerRun_isSome).1.take 13, [], _, _, _, _, rfl, rfl, rfl, rfl, rfl, rfl, rfl⟩
  obtain ⟨pre, post, step, server, outputs, c, hsteps, hbefore, hevent, houtput, hc, hclient,
    hdeliveries⟩ := hstep
  exact ⟨server, pre, outputs, hdeliveries, lastWill_of_run hrun hsteps hbefore hevent houtput hc
    hclient rfl (fits_of_split fits_brokerRun hsteps)⟩

/-- When a SUBSCRIBE of a client is received, the retained messages that are due to it are delivered
to it, once. -/
theorem retained_of_run {pre post : List ServerStep} {step : ServerStep} {subscribe : Subscribe}
    (h : machine.Run (some (create maxRetries)) steps t) (hsteps : steps = pre ++ step :: post)
    (hbefore : step.before = some server)
    (hevent : step.event = (kept, .connection k (.received (.subscribe subscribe) authenticated)))
    (houtput : step.output = .ok outputs) (hclient : server.clientOf k = some (some x))
    (hfits : ∀ earlier ∈ pre ++ [step], earlier.event.2.Fits) :
    server.Delivers outputs (server.RetainedDue (server.viewFrom kept k x) pre x subscribe) := by
  obtain ⟨hpre, after, houtcome⟩ := outcome_of_run h hsteps hbefore hevent houtput
  have hencoded := encoded_of_run h hsteps houtput hfits
  have hmanaged : server.managed kept
      (.connection k (.received (.subscribe subscribe) authenticated)) =
        some (server.viewFrom kept k x, .clientSubscribed x subscribe) :=
    managed_of_received hclient (by simp [MqttPacket.type]) (by simp [MqttPacket.type]) rfl
  by_cases hleft : server.sessionManager.leftBehind (server.viewFrom kept k x) x = []
  · have hactions : server.sessionManager.actions (server.viewFrom kept k x)
        (.clientSubscribed x subscribe) = [] ++ [.subscribe x (requestsOf subscribe)] := by
      rw [SessionManager.actions, hleft]
      rfl
    obtain ⟨hnodup, howes⟩ := deliveries_of_actions houtcome hmanaged rfl [] hactions
    refine ⟨hnodup, fun d => ?_, hencoded⟩
    rw [howes]
    exact owes_subscribe_iff_due hpre
  · obtain ⟨entry, hentry, hgone⟩ := SessionManager.gone_of_leftBehind hleft
    have hactions : server.sessionManager.actions (server.viewFrom kept k x)
        (.clientSubscribed x subscribe) =
          [.subscribe x (requestsOf subscribe)] ++ [.leave entry.session.clientId] := by
      rw [SessionManager.actions, SessionManager.leftBehind, hentry]
      simp only [hgone, Bool.false_eq_true, if_false]
      rfl
    obtain ⟨hnodup, howes⟩ := deliveries_of_actions houtcome hmanaged rfl _ hactions
    refine ⟨hnodup, fun d => ?_, hencoded⟩
    rw [howes]
    constructor
    · intro hleave
      cases hleave
    · intro hdue
      have hsession := hdue.session
      rw [sessionConnection, hentry, Option.map_some, Option.some.injEq] at hsession
      have hreachable := hdue.reaches.1
      rw [← hsession] at hreachable
      rw [SessionManager.connected, hreachable] at hgone
      cases hgone

/-- The first message above is due to the client that subscribes. -/
theorem retained_of_run_broker : ∃ (server : MqttServer) (pre : List ServerStep)
    (outputs : List Output),
      deliveries (effectsOf (server.carriedOut outputs)) =
        [⟨[0x79], 1, [0x61], [0x01], .atMostOnce, true⟩] ∧
      server.Delivers outputs (server.RetainedDue (server.viewFrom (fun _ => false) 1 [0x79]) pre
        [0x79] ⟨6, 1, [⟨[0x61], .atMostOnce, SessionManager.wellFormed_letter⟩]⟩) := by
  have hrun := Machine.run_exec (Option.some_get brokerRun_isSome).symm
  have hstep : ∃ (pre post : List ServerStep) (step : ServerStep) (server : MqttServer)
      (outputs : List Output), (brokerRun.get brokerRun_isSome).1 = pre ++ step :: post ∧
      step.before = some server ∧ step.event = (fun _ => false, .connection 1 (.received
        (.subscribe ⟨6, 1, [⟨[0x61], .atMostOnce, SessionManager.wellFormed_letter⟩]⟩) true)) ∧
      step.output = .ok outputs ∧ server.clientOf 1 = some (some [0x79]) ∧
        deliveries (effectsOf (server.carriedOut outputs)) =
          [⟨[0x79], 1, [0x61], [0x01], .atMostOnce, true⟩] :=
    ⟨(brokerRun.get brokerRun_isSome).1.take 9, (brokerRun.get brokerRun_isSome).1.drop 10, _, _,
      _, rfl, rfl, rfl, rfl, rfl, rfl⟩
  obtain ⟨pre, post, step, server, outputs, hsteps, hbefore, hevent, houtput, hclient,
    hdeliveries⟩ := hstep
  exact ⟨server, pre, outputs, hdeliveries, retained_of_run hrun hsteps hbefore hevent houtput
    hclient (fits_of_split fits_brokerRun hsteps)⟩

end MqttServer

end Server
end WallyIo
