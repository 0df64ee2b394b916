import WallyIo.Dispatch.Provenance
import WallyIo.Server.SessionClosing

/-!
# Who is sent what, and by whom

The server connects clients with each other.  What it does to a connection is meant for the
client that has been accepted on it, and what it sends there has been published by a client
that has been accepted before, or is the last will of such a client.

Main results:

- Theorem {lit}`not_stopped_of_sent`: an event that has a session send a packet on a connection does
  not stop this connection.
- Theorem {lit}`stems_of_outcome`: no event lets a packet in that no accepted client has
  published.
- Theorem {lit}`authentic_of_run`: in every run each packet has an accepted client for sender
  and is sent to the accepted client that it is meant for.
-/

namespace WallyIo
namespace Server

open Protocol
open Library
open Connection
open Dispatch

namespace MqttServer

variable {server after : MqttServer} {kept : ConnectionId → Bool} {event : ServerEvent}
  {outputs : List Output} {k : ConnectionId} {x : Bytes} {steps : List ServerStep}
  {connect : Connect} {source : Publish}

/-! ## Senders -/

/-- A packet comes from a client that has been accepted: it has been received on the connection
of this client later on, or it is the last will of this client. -/
inductive Authentic (steps : List ServerStep) (source : Publish) : Prop
  | published (k : ConnectionId) (connect : Connect) (pre post : List ServerStep)
      (step : ServerStep) (authenticated : Bool) (hsteps : steps = pre ++ step :: post)
      (haccepted : AcceptedOn pre k connect)
      (hevent : step.event.2 = .connection k (.received (.publish source) authenticated))
  | lastWill (k : ConnectionId) (connect : Connect) (haccepted : AcceptedOn steps k connect)
      (hwill : carriedWill connect = some source)

theorem AcceptedOn.append (h : AcceptedOn steps k connect) (more : List ServerStep) :
    AcceptedOn (steps ++ more) k connect := by
  obtain ⟨before, kept, outputs, after, hmem, hclient⟩ := h
  exact ⟨before, kept, outputs, after, List.mem_append_left _ hmem, hclient⟩

/-- More may happen later. -/
theorem Authentic.append (h : Authentic steps source) (more : List ServerStep) :
    Authentic (steps ++ more) source := by
  cases h with
  | published k connect pre post step authenticated hsteps haccepted hevent =>
      refine .published k connect pre (post ++ more) step authenticated ?_ haccepted hevent
      rw [hsteps, List.append_assoc, List.cons_append]
  | lastWill k connect haccepted hwill => exact .lastWill k connect (haccepted.append more) hwill

/-! ## One event -/

/-- An event of the session manager is caused by an event of the server. -/
theorem exists_perform_of_outcome (h : server.Outcome kept event outputs after) :
    (after.sessionManager = server.sessionManager ∧
        ∀ effect, Output.effect effect ∉ outputs) ∨
      ∃ connections managerEvent effects,
        server.sessionManager.perform connections managerEvent =
            some (.ok (effects, after.sessionManager)) ∧
          (∀ effect, Output.effect effect ∈ outputs → effect ∈ effects) ∧
          ∀ source, managerEvent.Brings source →
            (∃ j authenticated clientId,
                event = .connection j (.received (.publish source) authenticated) ∧
                  server.clientOf j = some (some clientId)) ∨
              ∃ j connect, event = .connection j (.received (.connect connect) true) ∧
                server.clientOf j = some none ∧ carriedWill connect = some source := by
  have hwritten : ∀ {j : ConnectionId} {outputs : List Output},
      (∀ output ∈ outputs, IsWrite j output) → ∀ effect, Output.effect effect ∉ outputs := by
    intro j outputs hwrites effect hmem
    obtain ⟨packet, hpacket⟩ := hwrites _ hmem
    cases hpacket
  cases h with
  | accepted _ hclient hopen hmanager =>
      exact Or.inl ⟨hmanager, fun _ hmem => absurd hmem List.not_mem_nil⟩
  | quiet j event c _ _ hc hreason halone hcloses hmanager hwrites =>
      exact Or.inl ⟨hmanager, hwritten hwrites⟩
  | connected j connect c _ _ hc hclientId hisOpen hperform hclient hopen hwrites =>
      refine Or.inr ⟨_, _, [], hperform,
        fun effect hmem => absurd hmem (hwritten hwrites effect), ?_⟩
      rintro source hbrings
      cases hbrings with
      | lastWill _ _ maxRetries _ hwill =>
          rw [lastWill_clientConnected] at hwill
          refine Or.inr ⟨j, connect, rfl, ?_, hwill⟩
          rw [clientOf_eq hc, hclientId]
  | handedOver j packet authenticated c clientId managerEvent effects _ _ hc hclientId hconnect
      hdisconnect hevent hperform hcloses hwrites =>
      refine Or.inr ⟨_, _, effects, hperform,
        fun effect hmem => (effect_mem_iff hwrites).mp hmem, ?_⟩
      rintro source hbrings
      cases hbrings with
      | published sender source =>
          refine Or.inl ⟨j, authenticated, clientId, ?_, ?_⟩
          · cases packet with
            | publish p =>
                cases hevent
                rfl
            | connect connect => exact absurd rfl hconnect
            | disconnect => exact absurd rfl hdisconnect
            | subscribe | unsubscribe | publishAck => cases hevent
            | connack | suback | unsuback | pingreq | pingresp => cases hevent
          · rw [clientOf_eq hc, hclientId]
      | lastWill connect' j' maxRetries source hwill =>
          exact absurd rfl ((client_of_handlePacketReceived hconnect hevent).2 connect' j')
  | closed j event c clientId reason effects _ _ hc hclientId hreason hperform hcloses
      hwrites =>
      refine Or.inr ⟨_, _, effects, hperform,
        fun effect hmem => (effect_mem_iff hwrites).mp hmem, ?_⟩
      rintro source hbrings
      rw [disconnectEvent] at hbrings
      split at hbrings <;> cases hbrings
  | closedUnknown j event c reason _ _ hc hclientId hreason hcloses hmanager hwrites =>
      exact Or.inl ⟨hmanager, hwritten hwrites⟩
  | session managerEvent effects _ hinternal hperform hcloses =>
      refine Or.inr ⟨_, _, effects, hperform, ?_, ?_⟩
      · intro effect hmem
        obtain ⟨effect', heffect, heq⟩ := List.mem_map.mp hmem
        cases heq
        exact heffect
      · rintro source hbrings
        cases hbrings <;> cases hinternal
  | stoppedAll _ hcloses hmanager =>
      exact Or.inl ⟨hmanager, fun _ hmem => absurd hmem List.not_mem_nil⟩

/-- What an event brings in comes from a client that has been accepted. -/
theorem authentic_of_brings {maxRetries : Nat}
    (hrun : machine.Run (some (create maxRetries)) steps (some server))
    (hbrings : (∃ j authenticated clientId,
        event = .connection j (.received (.publish source) authenticated) ∧
          server.clientOf j = some (some clientId)) ∨
      ∃ j connect, event = .connection j (.received (.connect connect) true) ∧
        server.clientOf j = some none ∧ carriedWill connect = some source) :
    Authentic (steps ++ [⟨some server, (kept, event), .ok outputs, some after⟩]) source := by
  rcases hbrings with ⟨j, authenticated, clientId, rfl, hclient⟩ | ⟨j, connect, rfl, hnone, hwill⟩
  · obtain ⟨connect, haccepted, -⟩ := acceptedOn_of_run hrun hclient
    exact .published j connect steps [] _ authenticated rfl haccepted rfl
  · exact .lastWill j connect (acceptedOn_snoc_iff.mpr (Or.inr ⟨rfl, hnone⟩)) hwill

/-- An event keeps and sends what accepted clients have published. -/
theorem stems_of_outcome {maxRetries : Nat}
    (hrun : machine.Run (some (create maxRetries)) steps (some server))
    (hstems : SessionManager.Stems (Authentic steps) server.sessionManager)
    (h : server.Outcome kept event outputs after) :
    SessionManager.Stems
        (Authentic (steps ++ [⟨some server, (kept, event), .ok outputs, some after⟩]))
        after.sessionManager ∧
      ∀ j p, Output.effect (.call x j (.send (.publish p))) ∈ outputs →
        StemsFrom (Authentic (steps ++ [⟨some server, (kept, event), .ok outputs, some after⟩]))
          p := by
  have hmore := hstems.mono fun source hsource =>
    Authentic.append hsource [⟨some server, (kept, event), .ok outputs, some after⟩]
  rcases exists_perform_of_outcome h with
    ⟨hmanager, hnone⟩ | ⟨connections, managerEvent, effects, hperform, heffects, hbrings⟩
  · rw [hmanager]
    exact ⟨hmore, fun j p hmem => absurd hmem (hnone _)⟩
  · obtain ⟨hafter, hsent⟩ := SessionManager.stems_of_perform hmore
      (fun source hsource => authentic_of_brings hrun (hbrings source hsource)) hperform
    exact ⟨hafter, fun j p hmem =>
      hsent x p (SessionManager.mem_publishesTo_iff.mpr ⟨j, heffects _ hmem⟩)⟩

/-- What the server does to a connection is meant for the client accepted on it. -/
theorem acceptedOn_of_call {maxRetries : Nat}
    (hrun : machine.Run (some (create maxRetries)) steps (some server))
    (h : server.Outcome kept event outputs after) {call : SenderCall}
    (hmem : Output.effect (.call x k call) ∈ outputs) :
    ∃ connect, AcceptedOn steps k connect ∧ connect.clientId = x := by
  rcases exists_perform_of_outcome h with
    ⟨-, hnone⟩ | ⟨connections, managerEvent, effects, hperform, heffects, -⟩
  · exact absurd hmem (hnone _)
  · obtain ⟨hconnection, -⟩ := SessionManager.call_of_perform hperform (heffects _ hmem)
    obtain ⟨p, hp, rfl⟩ := Option.map_eq_some_iff.mp hconnection
    exact acceptedOn_of_run hrun (keyed_of_run hrun x p hp).2

/-- An event that has a session send a packet does not have it stop its connection. -/
theorem not_stopped_of_sent (h : server.Outcome kept event outputs after) {packet : MqttPacket}
    (hmem : Output.effect (.call x k (.send packet)) ∈ outputs) (y : Bytes) (message : String) :
    Output.effect (.call y k (.stop message)) ∉ outputs := by
  intro hstop
  rcases exists_perform_of_outcome h with
    ⟨-, hnone⟩ | ⟨connections, managerEvent, effects, hperform, heffects, -⟩
  · exact hnone _ hmem
  · have hstopped : SessionManager.stopped effects k = true :=
      List.any_eq_true.mpr ⟨_, heffects _ hstop, by simp [SenderCall.isStop]⟩
    exact SessionManager.not_sent_of_stopped hperform hstopped packet (heffects _ hmem)

/-! ## Runs -/

/-- What a server keeps has been published by accepted clients. -/
theorem stems_of_serverRun {maxRetries : Nat}
    (hrun : machine.Run (some (create maxRetries)) steps (some server)) :
    SessionManager.Stems (Authentic steps) server.sessionManager := by
  refine run_invariant (fun steps server =>
    SessionManager.Stems (Authentic steps) server.sessionManager) ?_ ?_ hrun rfl
  · refine ⟨fun p hp => absurd hp List.not_mem_nil, ?_⟩
    intro x entry hnone
    cases hnone
  · intro pre server kept event outputs after hpre hstems houtcome
    exact (stems_of_outcome (x := []) hpre hstems houtcome).1

/-- Whatever a run does to a connection is meant for the client that has been accepted on it, and
whatever PUBLISH it sends there has been published by a client that has been accepted before, or
is the last will of one. -/
theorem authentic_of_run {maxRetries : Nat} {t : Option MqttServer}
    {pre post : List ServerStep} {step : ServerStep}
    (hrun : machine.Run (some (create maxRetries)) steps t) (hsteps : steps = pre ++ step :: post)
    (houtputs : step.output = .ok outputs) :
    (∀ x k call, Output.effect (.call x k call) ∈ outputs →
      ∃ connect, AcceptedOn pre k connect ∧ connect.clientId = x) ∧
      ∀ x k p, Output.effect (.call x k (.send (.publish p))) ∈ outputs →
        StemsFrom (Authentic (pre ++ [step])) p := by
  obtain ⟨hpre, hstep, -⟩ := hrun.split hsteps
  obtain ⟨before, e, o, after⟩ := step
  cases before with
  | none => cases hstep
  | some server =>
      cases houtputs
      rcases Machine.ofFallible_step_some hstep with
        ⟨failure, -, ho, -⟩ | ⟨outputs', after, hperform, ho, rfl⟩
      · cases ho
      · cases ho
        have houtcome := outcome_of_perform hperform
        exact ⟨fun x k call hmem => acceptedOn_of_call hpre houtcome hmem, fun x k p hmem =>
          (stems_of_outcome hpre (stems_of_serverRun hpre) houtcome).2 k p hmem⟩

/-- One client subscribes, and another one publishes. -/
def relayRun : Option (List ServerStep × Option MqttServer) :=
  machine.exec (some (create 3))
    ([(fun _ => false, .accepted), (fun _ => false, .accepted)] ++
      receives 0 (.connect (SessionManager.sampleConnect [0x78])) ++
      receives 1 (.connect (SessionManager.sampleConnect [0x79])) ++
      receives 0 (.subscribe ⟨6, 1, [⟨[0x61], .atMostOnce, SessionManager.wellFormed_letter⟩]⟩) ++
      receives 1 (.publish (.create false .atMostOnce false [0x61] 0 [0x01])))

theorem relayRun_isSome : relayRun.isSome = true := rfl

/-- The packet that the former is sent has been published by the latter. -/
theorem authentic_of_run_relay : ∃ pre step p, Output.effect (.call [0x78] 0 (.send (.publish p)))
      ∈ (step.output.toOption.getD [] : List Output) ∧
    (∃ connect, AcceptedOn pre 0 connect ∧ connect.clientId = [0x78]) ∧
      StemsFrom (Authentic (pre ++ [step])) p := by
  have hrun := Machine.run_exec (Option.some_get relayRun_isSome).symm
  have hlast : ∃ pre step post outputs p, (relayRun.get relayRun_isSome).1 = pre ++ step :: post ∧
      step.output = .ok outputs ∧
        outputs = [.effect (.publish p), .effect (.call [0x78] 0 (.send (.publish p)))] :=
    ⟨(relayRun.get relayRun_isSome).1.take 9, _, [], _, _, rfl, rfl, rfl⟩
  obtain ⟨pre, step, post, outputs, p, hsteps, houtputs, rfl⟩ := hlast
  obtain ⟨haddressed, hauthentic⟩ := authentic_of_run hrun hsteps houtputs
  refine ⟨pre, step, p, ?_, haddressed [0x78] 0 (.send (.publish p)) (by simp),
    hauthentic [0x78] 0 p (by simp)⟩
  rw [houtputs]
  simp [Except.toOption]

end MqttServer

end Server
end WallyIo
