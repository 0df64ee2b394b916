import WallyIo.Connection.Answers
import WallyIo.Library.Machine

/-!
# Nothing is dispatched before authentication

A single connection together with whatever its environment does: the client sends
packets, the dispatch layer sends packets through the connection or stops it, timers
elapse and write operations complete.

Main results:

- Theorem {lit}`dispatchesAuthenticated_iff`: in a run, nothing is dispatched for an
  unauthenticated client exactly if the client begins with a CONNECT and sends nothing
  but CONNECT and PINGREQ before one of them has been accepted.
- Theorem {lit}`dereferenced_before_connect`: a PUBLISH that comes first.
-/

namespace WallyIo
namespace Connection

open Protocol
open Library
open Codec
open Dispatch

/-! ## Runs of a connection -/

/-- What happens: an event together with the calls by which the dispatch layer answers
it on this connection, or a call of the dispatch layer for another reason. -/
inductive ConnectionInput
  | event (event : ConnectionEvent) (calls : List SenderCall)
  | call (call : SenderCall)
deriving DecidableEq, Repr

/-- How a connection and the dispatch layer answer an event. -/
def MqttConnection.react (c : MqttConnection) :
    ConnectionInput → Option (Except Fault (List Action × MqttConnection))
  | .event event calls =>
      (c.handle event).map (Except.map fun (c, actions) =>
        (actions, actions.foldl (MqttConnection.perform calls) c))
  | .call call => some (.ok ([], c.applyCall call))

/-- A connection as a machine.  A failure ends it. -/
def connectionMachine :
    Machine (Option MqttConnection) ConnectionInput (Except Fault (List Action)) :=
  Machine.ofFallible MqttConnection.react

/-- An executed step of a connection. -/
abbrev ConnectionStep := Step (Option MqttConnection) ConnectionInput (Except Fault (List Action))

/-- The containers that a step hands over to the dispatcher. -/
def handedOver (x : ConnectionStep) : List PacketContainer :=
  match x.output with
  | .ok actions => containers actions
  | .error _ => []

/-- The packet that is received in a step. -/
def receivedPacket (x : ConnectionStep) : Option MqttPacket :=
  match x.event with
  | .event (.received packet _) _ => some packet
  | _ => none

/-- A CONNECT is received for which {lit}`authenticate` returns true. -/
def AcceptsConnect (x : ConnectionStep) : Prop :=
  ∃ connect calls c, x.event = .event (.received (.connect connect) true) calls ∧
    x.before = some c ∧ c.clientId = none ∧ c.isOpen = true

/-! ## The property -/

/-- Nothing is dispatched for an unauthenticated connection. -/
structure DispatchesAuthenticated (steps : List ConnectionStep) : Prop where
  /-- A packet is handed over only if an earlier or the same packet was an accepted
  CONNECT. -/
  accepted : ∀ pre x post, steps = pre ++ x :: post → ∀ container ∈ handedOver x,
    ∃ y ∈ pre ++ [x], AcceptsConnect y
  /-- At most one CONNECT is handed over. -/
  oneConnect : ((steps.flatMap handedOver).filter PacketContainer.isConnect).length ≤ 1
  /-- The client identifier is never dereferenced while it is empty. -/
  dereferenced : ∀ x ∈ steps, x.output ≠ .error .undefinedBehaviour
  /-- A connection whose first packet is not a CONNECT is closed. -/
  closed : ∀ pre x post packet, steps = pre ++ x :: post →
    (∀ y ∈ pre, receivedPacket y = none) → receivedPacket x = some packet →
      packet.type ≠ .connect → ∀ c, x.after = some c → c.isOpen = false

/-- The client sends nothing but CONNECT and PINGREQ before one CONNECT has been
accepted, and begins with a CONNECT unless the connection has been closed. -/
structure ConnectsFirst (steps : List ConnectionStep) : Prop where
  accepted : ∀ pre x post packet, steps = pre ++ x :: post → receivedPacket x = some packet →
    packet.type ≠ .connect → packet.type ≠ .pingreq → ∃ y ∈ pre, AcceptsConnect y
  first : ∀ pre x post packet, steps = pre ++ x :: post →
    (∀ y ∈ pre, receivedPacket y = none) → receivedPacket x = some packet →
      packet.type = .connect ∨ ∃ c, x.before = some c ∧ c.isOpen = false

/-! ## What every run satisfies -/

/-- The client is known exactly if a CONNECT has been accepted; that CONNECT has been
handed over and no other. -/
structure Known (steps : List ConnectionStep) (c : MqttConnection) : Prop where
  isSome_iff : c.clientId.isSome = true ↔ ∃ y ∈ steps, AcceptsConnect y
  connects : ((steps.flatMap handedOver).filter PacketContainer.isConnect).length =
    if c.clientId.isSome = true then 1 else 0

/-- What a step does that does not fail. -/
theorem react_cases {c c' : MqttConnection} {input : ConnectionInput} {actions : List Action}
    (h : c.react input = some (.ok (actions, c'))) :
    (∃ connect calls, input = .event (.received (.connect connect) true) calls ∧
        c.clientId = none ∧ c.isOpen = true ∧ c'.clientId = some connect.clientId ∧
          containers actions =
            [⟨connect.clientId, .connect connect, .clientDisconnect⟩]) ∨
      ((¬ ∃ connect calls, input = .event (.received (.connect connect) true) calls ∧
          c.clientId = none ∧ c.isOpen = true) ∧
        c'.clientId = c.clientId ∧ c.HandsOver actions) := by
  cases input with
  | call call =>
      simp only [MqttConnection.react, Option.some.injEq, Except.ok.injEq, Prod.mk.injEq] at h
      refine Or.inr ⟨?_, ?_, ?_⟩
      · rintro ⟨connect, calls, hevent, -⟩
        cases hevent
      · rw [← h.2, MqttConnection.clientId_applyCall]
      · rw [← h.1]
        exact MqttConnection.handsOver_of_nil rfl
  | event event calls =>
      simp only [MqttConnection.react, Option.map_eq_some_iff] at h
      rcases h with ⟨result, hhandle, hresult⟩
      cases result with
      | error failure => cases hresult
      | ok answer =>
          obtain ⟨c'', actions'⟩ := answer
          cases hresult
          rw [MqttConnection.clientId_foldl_perform]
          by_cases haccepts : c.Accepts event
          · rcases haccepts with ⟨connect, rfl, hclient, hopen⟩
            rcases MqttConnection.handle_accepts hclient hopen hhandle with ⟨rfl, rfl⟩
            refine Or.inl ⟨connect, calls, rfl, hclient, hopen, ?_, rfl⟩
            rw [MqttConnection.clientId_connected]
          · refine Or.inr ⟨?_, MqttConnection.handle_frame haccepts hhandle⟩
            rintro ⟨connect, calls', hevent, hclient, hopen⟩
            cases hevent
            exact haccepts ⟨connect, rfl, hclient, hopen⟩

/-- A step hands nothing over when it fails. -/
theorem handedOver_error {c : Option MqttConnection} {input : ConnectionInput} {failure : Fault}
    {t : Option MqttConnection} : handedOver ⟨c, input, .error failure, t⟩ = [] := rfl

/-- The CONNECTs handed over by a list of steps and one more. -/
theorem connects_append_singleton (pre : List ConnectionStep) (x : ConnectionStep) :
    (((pre ++ [x]).flatMap handedOver).filter PacketContainer.isConnect).length =
      ((pre.flatMap handedOver).filter PacketContainer.isConnect).length +
        ((handedOver x).filter PacketContainer.isConnect).length := by
  simp

/-- A known client stays known, and is known because of an accepted CONNECT. -/
theorem Known.step {pre : List ConnectionStep} {c c' : MqttConnection}
    {input : ConnectionInput} {actions : List Action} (h : Known pre c)
    (hreact : c.react input = some (.ok (actions, c'))) :
    Known (pre ++ [⟨some c, input, .ok actions, some c'⟩]) c' := by
  rcases react_cases hreact with
    ⟨connect, calls, rfl, hclient, hopen, hclient', hcontainers⟩ | ⟨hnot, hclient', hands⟩
  · constructor
    · rw [hclient']
      refine iff_of_true rfl ⟨_, List.mem_append_right _ (List.mem_singleton_self _), ?_⟩
      exact ⟨connect, calls, c, rfl, rfl, hclient, hopen⟩
    · have hnone := h.connects
      rw [connects_append_singleton, hclient']
      rw [hclient] at hnone
      simp only [handedOver, hcontainers]
      simp [hnone, PacketContainer.isConnect, MqttPacket.type]
  · have hnew : ¬ AcceptsConnect ⟨some c, input, .ok actions, some c'⟩ := by
      rintro ⟨connect, calls, c'', hevent, hbefore, hclient, hopen⟩
      cases hbefore
      exact hnot ⟨connect, calls, hevent, hclient, hopen⟩
    have hnone : (containers actions).filter PacketContainer.isConnect = [] := by
      rw [List.filter_eq_nil_iff]
      intro container hmem
      rw [(hands container hmem).2]
      exact Bool.false_ne_true
    constructor
    · rw [hclient', h.isSome_iff]
      constructor
      · rintro ⟨y, hy, haccepts⟩
        exact ⟨y, by simp [hy], haccepts⟩
      · rintro ⟨y, hy, haccepts⟩
        rcases List.mem_append.mp hy with hold | hlast
        · exact ⟨y, hold, haccepts⟩
        · rw [List.mem_singleton] at hlast
          exact absurd (hlast ▸ haccepts) hnew
    · rw [connects_append_singleton, hclient', h.connects]
      simp only [handedOver, hnone, List.length_nil, Nat.add_zero]

/-- After every run the client is known exactly if a CONNECT has been accepted, and at most
one CONNECT has been handed over. -/
theorem known_of_run {steps : List ConnectionStep} {u : Option MqttConnection}
    (hrun : connectionMachine.Run (some .started) steps u) :
    ((steps.flatMap handedOver).filter PacketContainer.isConnect).length ≤ 1 ∧
      ∀ c, u = some c → Known steps c := by
  apply hrun.snoc_induction (motive := fun steps u =>
    ((steps.flatMap handedOver).filter PacketContainer.isConnect).length ≤ 1 ∧
      ∀ c, u = some c → Known steps c)
  · refine ⟨by simp, ?_⟩
    intro c hc
    cases hc
    exact ⟨by simp [MqttConnection.started], by simp [MqttConnection.started]⟩
  · intro pre t e o u hpre hstep ih
    cases t with
    | none => cases hstep
    | some c =>
        rcases Machine.ofFallible_step_some hstep with
          ⟨failure, -, rfl, rfl⟩ | ⟨actions, c', hreact, rfl, rfl⟩
        · refine ⟨?_, fun c' hc' => by cases hc'⟩
          rw [connects_append_singleton, handedOver_error]
          exact ih.1
        · have hknown := (ih.2 c rfl).step hreact
          refine ⟨?_, ?_⟩
          · rw [hknown.connects]
            split <;> omega
          · intro c'' hc''
            cases hc''
            exact hknown

/-- Every step of a run starts from a connection that knows its client accordingly. -/
theorem known_before {steps pre post : List ConnectionStep} {u : Option MqttConnection}
    {x : ConnectionStep} (hrun : connectionMachine.Run (some .started) steps u)
    (hsplit : steps = pre ++ x :: post) :
    ∃ c result, x.before = some c ∧ Known pre c ∧ c.react x.event = some result ∧
      ((∃ failure, result = .error failure ∧ x.output = .error failure ∧ x.after = none) ∨
        ∃ actions c', result = .ok (actions, c') ∧ x.output = .ok actions ∧
          x.after = some c') := by
  rcases hrun.split hsplit with ⟨hpre, hstep, -⟩
  cases hbefore : x.before with
  | none =>
      rw [hbefore] at hstep
      cases hstep
  | some c =>
      rw [hbefore] at hstep hpre
      have hknown := (known_of_run hpre).2 c rfl
      rcases Machine.ofFallible_step_some hstep with
        ⟨failure, hreact, houtput, hafter⟩ | ⟨actions, c', hreact, houtput, hafter⟩
      · exact ⟨c, _, rfl, hknown, hreact, Or.inl ⟨failure, rfl, houtput, hafter⟩⟩
      · exact ⟨c, _, rfl, hknown, hreact, Or.inr ⟨actions, c', rfl, houtput, hafter⟩⟩

/-- In every run a packet is handed over only if an earlier or the same packet was an
accepted CONNECT. -/
theorem accepted_of_handedOver {steps pre post : List ConnectionStep}
    {u : Option MqttConnection} {x : ConnectionStep}
    (hrun : connectionMachine.Run (some .started) steps u)
    (hsplit : steps = pre ++ x :: post) {container : PacketContainer}
    (hmem : container ∈ handedOver x) : ∃ y ∈ pre ++ [x], AcceptsConnect y := by
  rcases known_before hrun hsplit with
    ⟨c, result, hbefore, hknown, hreact, ⟨failure, -, houtput, -⟩ | ⟨actions, c', rfl, houtput, -⟩⟩
  · simp [handedOver, houtput] at hmem
  · rcases react_cases hreact with
      ⟨connect, calls, hevent, hclient, hopen, -, -⟩ | ⟨-, -, hands⟩
    · exact ⟨x, by simp, connect, calls, c, hevent, hbefore, hclient, hopen⟩
    · simp only [handedOver, houtput] at hmem
      rcases hknown.isSome_iff.mp (hands container hmem).1 with ⟨y, hy, haccepts⟩
      exact ⟨y, by simp [hy], haccepts⟩

/-! ## When the property holds -/

/-- A step that receives a packet. -/
theorem receivedPacket_eq_some {x : ConnectionStep} {packet : MqttPacket}
    (h : receivedPacket x = some packet) :
    ∃ authenticated calls, x.event = .event (.received packet authenticated) calls := by
  unfold receivedPacket at h
  split at h
  · rename_i packet' authenticated calls hevent
    cases h
    exact ⟨authenticated, calls, hevent⟩
  · cases h

/-- A PINGREQ is answered without closing the connection. -/
theorem react_pingreq {c : MqttConnection} {authenticated : Bool} {calls : List SenderCall}
    {result : Except Fault (List Action × MqttConnection)} {packet : MqttPacket}
    (hpingreq : packet.type = .pingreq)
    (h : c.react (.event (.received packet authenticated) calls) = some result) :
    ∃ actions c', result = .ok (actions, c') ∧ c'.isOpen = c.isOpen := by
  cases packet with
  | pingreq =>
      simp only [MqttConnection.react, MqttConnection.handle] at h
      split at h
      · simp only [MqttConnection.processDecodedPacket, Option.map_some, Except.map,
          Option.some.injEq] at h
        refine ⟨_, _, h.symm, ?_⟩
        simp [MqttConnection.perform]
      · cases h
  | publishAck ack => cases ack <;> cases hpingreq
  | connect | connack | publish | subscribe | suback | unsubscribe | unsuback | pingresp
  | disconnect => cases hpingreq

/-- An empty client identifier is dereferenced by the first packet that needs it. -/
theorem react_undefinedBehaviour_iff {c : MqttConnection} {input : ConnectionInput}
    {result : Except Fault (List Action × MqttConnection)} (h : c.react input = some result) :
    result = .error .undefinedBehaviour ↔
      c.clientId = none ∧ ∃ packet authenticated calls,
        input = .event (.received packet authenticated) calls ∧ packet.type ≠ .connect ∧
          packet.type ≠ .pingreq := by
  cases input with
  | call call =>
      simp only [MqttConnection.react, Option.some.injEq] at h
      rw [← h]
      simp
  | event event calls =>
      simp only [MqttConnection.react, Option.map_eq_some_iff] at h
      rcases h with ⟨answer, hhandle, rfl⟩
      constructor
      · intro hfailure
        cases answer with
        | ok answer => cases hfailure
        | error failure =>
            cases hfailure
            rcases MqttConnection.handle_undefinedBehaviour_iff.mp hhandle with
              ⟨hclient, -, packet, authenticated, rfl, -, hconnect, hpingreq⟩
            exact ⟨hclient, packet, authenticated, calls, rfl, hconnect, hpingreq⟩
      · rintro ⟨hclient, packet, authenticated, calls', hevent, hconnect, hpingreq⟩
        cases hevent
        have hallowed : c.read = .queued ∧ supported packet.type = true := by
          by_contra hnot
          simp [MqttConnection.handle, hnot] at hhandle
        have hfail := MqttConnection.handle_undefinedBehaviour_iff.mpr
          ⟨hclient, hallowed.1, packet, authenticated, rfl, hallowed.2, hconnect, hpingreq⟩
        rw [hhandle] at hfail
        cases hfail
        rfl

/-- A client that begins with a CONNECT and waits until one has been accepted is served
properly. -/
theorem dispatchesAuthenticated_of_connectsFirst {steps : List ConnectionStep}
    {u : Option MqttConnection} (hrun : connectionMachine.Run (some .started) steps u)
    (hfirst : ConnectsFirst steps) : DispatchesAuthenticated steps := by
  -- a step in which an empty client identifier would be dereferenced comes too early
  have hdefined : ∀ pre x post, steps = pre ++ x :: post →
      x.output ≠ .error .undefinedBehaviour := by
    intro pre x post hsplit hbad
    rcases known_before hrun hsplit with
      ⟨c, result, -, hknown, hreact, ⟨failure, rfl, houtput, -⟩ | ⟨_, _, -, houtput, -⟩⟩
    · rw [houtput] at hbad
      cases hbad
      rcases (react_undefinedBehaviour_iff hreact).mp rfl with
        ⟨hclient, packet, authenticated, calls, hevent, hconnect, hpingreq⟩
      have hpacket : receivedPacket x = some packet := by
        unfold receivedPacket
        rw [hevent]
      have hsome := hknown.isSome_iff.mpr
        (hfirst.accepted pre x post packet hsplit hpacket hconnect hpingreq)
      rw [hclient] at hsome
      cases hsome
    · rw [houtput] at hbad
      cases hbad
  refine ⟨fun pre x post hsplit container hmem => accepted_of_handedOver hrun hsplit hmem,
    (known_of_run hrun).1, ?_, ?_⟩
  · intro x hx
    rcases List.append_of_mem hx with ⟨pre, post, hsplit⟩
    exact hdefined pre x post hsplit
  · intro pre x post packet hsplit hnone hpacket hconnect c' hafter
    rcases receivedPacket_eq_some hpacket with ⟨authenticated, calls, hevent⟩
    rcases known_before hrun hsplit with
      ⟨c, result, hbefore, hknown, hreact, ⟨_, -, -, hfailed⟩ | ⟨actions, c'', rfl, -, hok⟩⟩
    · rw [hfailed] at hafter
      cases hafter
    · rw [hok] at hafter
      cases hafter
      rcases hfirst.first pre x post packet hsplit hnone hpacket with
        hisConnect | ⟨c₀, hbefore₀, hclosed⟩
      · exact absurd hisConnect hconnect
      · rw [hbefore] at hbefore₀
        cases hbefore₀
        rw [hevent] at hreact
        by_cases hpingreq : packet.type = .pingreq
        · rcases react_pingreq hpingreq hreact with ⟨_, _, hresult, hopen⟩
          cases hresult
          rw [hopen]
          exact hclosed
        · -- no CONNECT has been received, let alone accepted
          exfalso
          rcases hfirst.accepted pre x post packet hsplit hpacket hconnect hpingreq with
            ⟨y, hy, connect, calls', c₁, hevent', -⟩
          have hreceived := hnone y hy
          unfold receivedPacket at hreceived
          rw [hevent'] at hreceived
          cases hreceived

/-- A client that is served properly begins with a CONNECT and waits until one has been
accepted. -/
theorem connectsFirst_of_dispatchesAuthenticated {steps : List ConnectionStep}
    {u : Option MqttConnection} (hrun : connectionMachine.Run (some .started) steps u)
    (hgood : DispatchesAuthenticated steps) : ConnectsFirst steps := by
  -- while the client is unknown, only CONNECT and PINGREQ avoid undefined behaviour
  have hknown : ∀ pre x post packet, steps = pre ++ x :: post →
      receivedPacket x = some packet → packet.type ≠ .connect → packet.type ≠ .pingreq →
        ∃ y ∈ pre, AcceptsConnect y := by
    intro pre x post packet hsplit hpacket hconnect hpingreq
    rcases receivedPacket_eq_some hpacket with ⟨authenticated, calls, hevent⟩
    rcases known_before hrun hsplit with ⟨c, result, -, hknown, hreact, hresult⟩
    rw [← hknown.isSome_iff]
    cases hclient : c.clientId with
    | some clientId => rfl
    | none =>
        exfalso
        have hbad := (react_undefinedBehaviour_iff hreact).mpr
          ⟨hclient, packet, authenticated, calls, hevent, hconnect, hpingreq⟩
        rcases hresult with ⟨failure, hfailure, houtput, -⟩ | ⟨_, _, hok, -, -⟩
        · rw [hbad] at hfailure
          cases hfailure
          exact hgood.dereferenced x (by simp [hsplit]) houtput
        · rw [hbad] at hok
          cases hok
  refine ⟨hknown, ?_⟩
  intro pre x post packet hsplit hnone hpacket
  by_cases hconnect : packet.type = .connect
  · exact Or.inl hconnect
  · refine Or.inr ?_
    rcases receivedPacket_eq_some hpacket with ⟨authenticated, calls, hevent⟩
    by_cases hpingreq : packet.type = .pingreq
    · rcases known_before hrun hsplit with ⟨c, result, hbefore, -, hreact, hresult⟩
      rw [hevent] at hreact
      rcases react_pingreq hpingreq hreact with ⟨actions, c', rfl, hopen⟩
      rcases hresult with ⟨failure, hfailure, -, -⟩ | ⟨_, _, hok, -, hafter⟩
      · cases hfailure
      · cases hok
        have hclosed := hgood.closed pre x post packet hsplit hnone hpacket hconnect c' hafter
        rw [hopen] at hclosed
        exact ⟨c, hbefore, hclosed⟩
    · rcases hknown pre x post packet hsplit hpacket hconnect hpingreq with
        ⟨y, hy, connect, calls', c₁, hevent', -⟩
      have hreceived := hnone y hy
      unfold receivedPacket at hreceived
      rw [hevent'] at hreceived
      cases hreceived

/-- Nothing is dispatched for an unauthenticated client exactly if the client begins with
a CONNECT and sends nothing but CONNECT and PINGREQ before one has been accepted. -/
theorem dispatchesAuthenticated_iff {steps : List ConnectionStep}
    {u : Option MqttConnection} (hrun : connectionMachine.Run (some .started) steps u) :
    DispatchesAuthenticated steps ↔ ConnectsFirst steps :=
  ⟨connectsFirst_of_dispatchesAuthenticated hrun, dispatchesAuthenticated_of_connectsFirst hrun⟩

/-! ## Two connections -/

/-- A PUBLISH with quality of service 0. -/
def firstPublish : Publish := Publish.create false .atMostOnce false [0x61] 0 []

/-- A client that publishes at once. -/
def publishFirstRun : Option (List ConnectionStep × Option MqttConnection) :=
  connectionMachine.exec (some .started)
    [.event .frameArrives [], .event (.received (.publish firstPublish) false) []]

theorem publishFirstRun_isSome : publishFirstRun.isSome = true := rfl

/-- The client identifier is dereferenced while it is empty in the run above. -/
theorem dereferenced_before_connect :
    ∃ steps u, connectionMachine.Run (some .started) steps u ∧
      ¬ DispatchesAuthenticated steps := by
  have hrun := Machine.run_exec (Option.some_get publishFirstRun_isSome).symm
  refine ⟨_, _, hrun, ?_⟩
  intro hgood
  exact hgood.dereferenced _ (List.getLast_mem (by decide)) rfl

/-- A CONNECT of client {lit}`a`. -/
def connectA : Connect := Connect.create 13 [0x4D, 0x51, 0x54, 0x54] 4 0x00 0 [0x61] [] [] [] []

/-- A client that connects, publishes and disconnects. -/
def connectFirstRun : Option (List ConnectionStep × Option MqttConnection) :=
  connectionMachine.exec (some .started)
    [.event .frameArrives [], .event (.received (.connect connectA) true) [],
      .event (.written 0 true) [], .event .frameArrives [],
      .event (.received (.publish firstPublish) false) [], .event .frameArrives [],
      .event (.received .disconnect false) []]

theorem connectFirstRun_isSome : connectFirstRun.isSome = true := rfl

/-- The client is served properly in the run above. -/
theorem dispatchesAuthenticated_connectFirstRun :
    ∃ steps u, connectionMachine.Run (some .started) steps u ∧ steps.length = 7 ∧
      (DispatchesAuthenticated steps ↔ ConnectsFirst steps) := by
  have hrun := Machine.run_exec (Option.some_get connectFirstRun_isSome).symm
  exact ⟨_, _, hrun, rfl, dispatchesAuthenticated_iff hrun⟩

end Connection
end WallyIo
