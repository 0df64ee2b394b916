import WallyIo.Server.Pairing

/-!
# Closing connections

When a connection closes, the session manager is to remove its session and to publish the
client's last will.  It is told so by the connection, unless it has stopped the connection
itself.

Main results:

- Theorem {lit}`acceptedOn_of_run`: a client whose identifier is known has sent a CONNECT that
  has been accepted.
- Theorem {lit}`lastWillOf_of_sessionConnection`: the session of a connection holds the last
  will of its CONNECT.
- Theorem {lit}`sessionsClosed_iff`: when no connection closes without its session.
- Theorem {lit}`not_sessionsClosed_violation`: an acknowledgement of nothing.
-/

namespace WallyIo
namespace Server

open Protocol
open Library
open Connection
open Dispatch
open SessionManager (stopped)

/-- The packet that publishes the last will that a CONNECT carries. -/
def carriedWill (connect : Connect) : Option Publish :=
  if h : connect.containsLastWill = true then
    some (Publish.create false connect.lastWillQos false (connect.lastWillTopic h) 0x0000
      (connect.lastWillMessage h))
  else none

/-- The last will of a CONNECT is that of the session that is created for it. -/
theorem lastWill_clientConnected (maxRetries : Nat) (connect : Connect) :
    (MqttClientSession.clientConnected maxRetries connect).lastWill = carriedWill connect := by
  by_cases h : connect.containsLastWill = true
  · simp only [MqttClientSession.lastWill, MqttClientSession.clientConnected, dif_pos h,
      Option.map_some, carriedWill]
  · simp only [MqttClientSession.lastWill, MqttClientSession.clientConnected, dif_neg h,
      Option.map_none, carriedWill]

namespace MqttServer

/-! ## Accepted connections -/

/-- A CONNECT has been accepted on a connection. -/
def AcceptedOn (steps : List ServerStep) (k : ConnectionId) (connect : Connect) : Prop :=
  ∃ before kept outputs after,
    ⟨some before, (kept, .connection k (.received (.connect connect) true)), .ok outputs,
      some after⟩ ∈ steps ∧ before.clientOf k = some none

variable {server after : MqttServer} {kept : ConnectionId → Bool} {event : ServerEvent}
  {outputs : List Output} {k : ConnectionId} {x : Bytes} {steps : List ServerStep}
  {connect : Connect}

theorem not_acceptedOn_nil : ¬ AcceptedOn [] k connect := by
  rintro ⟨before, kept, outputs, after, hmem, -⟩
  cases hmem

theorem acceptedOn_snoc_iff :
    AcceptedOn (steps ++ [⟨some server, (kept, event), .ok outputs, some after⟩]) k connect ↔
      AcceptedOn steps k connect ∨
        event = .connection k (.received (.connect connect) true) ∧
          server.clientOf k = some none := by
  constructor
  · rintro ⟨before, kept', outputs', after', hmem, hclient⟩
    rcases List.mem_append.mp hmem with hmem | hmem
    · exact Or.inl ⟨before, kept', outputs', after', hmem, hclient⟩
    · cases List.mem_singleton.mp hmem
      exact Or.inr ⟨rfl, hclient⟩
  · rintro (⟨before, kept', outputs', after', hmem, hclient⟩ | ⟨rfl, hclient⟩)
    · exact ⟨before, kept', outputs', after', List.mem_append_left _ hmem, hclient⟩
    · exact ⟨server, kept, outputs, after, by simp, hclient⟩

/-- The client of a connection is known as soon as its CONNECT has been accepted. -/
theorem clientOf_of_acceptedOn {maxRetries : Nat}
    (h : machine.Run (some (create maxRetries)) steps (some server))
    (haccepted : AcceptedOn steps k connect) :
    server.clientOf k = some (some connect.clientId) := by
  refine run_invariant (fun steps server => ∀ connect, AcceptedOn steps k connect →
    server.clientOf k = some (some connect.clientId))
    (fun _ haccepted => absurd haccepted not_acceptedOn_nil) ?_ h rfl connect haccepted
  intro pre server kept event outputs after _ hpre houtcome connect haccepted
  rcases acceptedOn_snoc_iff.mp haccepted with haccepted | ⟨rfl, hclient⟩
  · exact clientOf_of_outcome houtcome (hpre connect haccepted)
  · rcases Option.map_eq_some_iff.mp hclient with ⟨c, hc, hclientId⟩
    exact (outcome_of_connects hc hclientId houtcome).2.1

/-- A client whose identifier is known has sent a CONNECT that has been accepted. -/
theorem acceptedOn_of_run {maxRetries : Nat}
    (h : machine.Run (some (create maxRetries)) steps (some server))
    (hclient : server.clientOf k = some (some x)) :
    ∃ connect, AcceptedOn steps k connect ∧ connect.clientId = x := by
  refine run_invariant (fun steps server => server.clientOf k = some (some x) →
    ∃ connect, AcceptedOn steps k connect ∧ connect.clientId = x)
    (fun hnone => by cases hnone) ?_ h rfl hclient
  intro pre server kept event outputs after _ hpre houtcome hafter
  rcases connects_of_outcome houtcome hafter with
    hbefore | ⟨connect, c, rfl, hc, hclientId, -, rfl⟩
  · rcases hpre hbefore with ⟨connect, haccepted, hx⟩
    exact ⟨connect, acceptedOn_snoc_iff.mpr (Or.inl haccepted), hx⟩
  · have hnone : server.clientOf k = some none := by rw [clientOf_eq hc, hclientId]
    exact ⟨connect, acceptedOn_snoc_iff.mpr (Or.inr ⟨rfl, hnone⟩), rfl⟩

/-! ## The session of an accepted connection -/

/-- The session of a connection is the one that its CONNECT has created. -/
theorem profile_of_acceptedOn {maxRetries : Nat}
    (h : machine.Run (some (create maxRetries)) steps (some server))
    (haccepted : AcceptedOn steps k connect) {p : SessionManager.Profile}
    (hp : server.profile x = some p) (hk : p.connection = k) :
    p = SessionManager.createdProfile connect k := by
  refine run_invariant (fun steps server => ∀ connect x p, AcceptedOn steps k connect →
    server.profile x = some p → p.connection = k →
      p = SessionManager.createdProfile connect k)
    (fun _ _ _ haccepted => absurd haccepted not_acceptedOn_nil) ?_ h rfl connect x p
    haccepted hp hk
  intro pre server kept event outputs after hrun hpre houtcome connect x p haccepted hp hk
  have hkeyed : server.Keyed := keyed_of_run hrun
  cases sessionFate_of_outcome hkeyed houtcome x with
  | same hsame =>
      rw [hsame] at hp
      rcases acceptedOn_snoc_iff.mp haccepted with haccepted | ⟨rfl, hnone⟩
      · exact hpre connect x p haccepted hp hk
      · have hclient := (hkeyed x p hp).2
        rw [hk, hnone] at hclient
        cases hclient
  | @created j connect' c _ hc hclientId hx hfree hprofile =>
      rw [hprofile] at hp
      cases hp
      have hjk : j = k := hk
      subst hjk
      rcases acceptedOn_snoc_iff.mp haccepted with haccepted | ⟨he, -⟩
      · have hclient := clientOf_of_acceptedOn hrun haccepted
        rw [clientOf_eq hc, hclientId] at hclient
        cases hclient
      · cases he
        rfl
  | ended hc hclientId hp' hends hgone =>
      rw [hgone] at hp
      cases hp

/-- A stored session holds the last will of the CONNECT that has been accepted on its connection. -/
theorem lastWillOf_of_sessionConnection {maxRetries : Nat}
    (h : machine.Run (some (create maxRetries)) steps (some server))
    (haccepted : AcceptedOn steps k connect)
    (hconnection : server.sessionConnection x = some k) :
    server.sessionManager.lastWillOf x = carriedWill connect := by
  rcases Option.map_eq_some_iff.mp hconnection with ⟨entry, hentry, hk⟩
  have hprofile : server.profile x = some (SessionManager.profileOf entry) :=
    profile_of_lookup hentry
  have hcreated := profile_of_acceptedOn h haccepted hprofile hk
  have hlwt : entry.session.lwtMessage =
      (MqttClientSession.clientConnected 0 connect).lwtMessage :=
    congrArg SessionManager.Profile.lwtMessage hcreated
  rw [SessionManager.lastWillOf, hentry, Option.bind_some, ← lastWill_clientConnected 0 connect,
    MqttClientSession.lastWill, MqttClientSession.lastWill, hlwt]

/-! ## No connection closes without its session -/

/-- An accepted connection that the server closes, other than on a DISCONNECT of the client,
loses its session, and the last will of its CONNECT is published. -/
def ClosesSessions (pre : List ServerStep) (before : MqttServer) (event : ServerEvent)
    (outputs : List Output) (after : MqttServer) : Prop :=
  ∀ k connect, AcceptedOn pre k connect → before.isOpenAt k = true →
    after.isOpenAt k = false →
      (∀ authenticated, event ≠ .connection k (.received .disconnect authenticated)) →
        (∀ x, after.sessionConnection x ≠ some k) ∧
          ∀ p, carriedWill connect = some p → .effect (.publish p) ∈ outputs

/-- Connections are closed in the one way that tells the session manager enough. -/
structure ClosesGracefully (pre : List ServerStep) (server : MqttServer) (event : ServerEvent) :
    Prop where
  /-- If its CONNECT carries a last will, a connection closes for a reason that the session
  manager takes for the loss of the client, and this last will is stored. -/
  told : ∀ k e c connect reason p, event = .connection k e →
    server.connections[k]? = some c → c.isOpen = true → AcceptedOn pre k connect →
      c.closeReason e = some reason → (∀ authenticated, e ≠ .received .disconnect authenticated) →
        carriedWill connect = some p → isUngraceful reason = true ∧
          server.sessionManager.lastWillOf connect.clientId = some p
  /-- No acknowledgement is a protocol violation. -/
  acknowledged : ∀ j ack authenticated c x entry,
    event = .connection j (.received (.publishAck ack) authenticated) →
      server.connections[j]? = some c → c.clientId = some x →
        server.sessionManager.sessions.lookup x = some entry →
          server.isOpenAt entry.connection = true → entry.session.violates ack = false
  /-- When all connections close there is nothing left of the clients. -/
  stoppedAll : event = .stopAll → ∀ k connect, AcceptedOn pre k connect →
    server.isOpenAt k = true →
      (∀ x, server.sessionConnection x ≠ some k) ∧ carriedWill connect = none

/-- The session manager sees open connections. -/
theorem isSome_viewFrom {j : ConnectionId} (h : server.isOpenAt j = true) :
    (server.viewFrom kept k x j).isSome = true := by
  rw [viewFrom]
  split
  · rfl
  · rw [isOpenAt] at h
    cases hc : server.connections[j]? with
    | none =>
        rw [hc] at h
        cases h
    | some c =>
        rw [hc] at h
        have hisOpen : c.isOpen = true := h
        simp [view, hc, MqttConnection.alive, hisOpen]

/-- Only an acknowledgement of a client may make the session manager stop a connection. -/
theorem violates_of_stopped {packet : MqttPacket} {event : SessionManager.Event}
    {connections : Connections} {effects : List Effect} {m' : SessionManager}
    {reason : DisconnectReason} {j : ConnectionId} (hconnect : packet.type ≠ .connect)
    (hevent : SessionManager.handlePacketReceived ⟨x, packet, reason⟩ j = .ok event)
    (hperform : server.sessionManager.perform connections event = some (.ok (effects, m')))
    (hstopped : stopped effects k = true) :
    ∃ ack entry, packet = .publishAck ack ∧
      server.sessionManager.sessions.lookup x = some entry ∧ entry.connection = k ∧
        entry.session.violates ack = true := by
  rcases (SessionManager.stopped_iff hperform).mp hstopped with
    ⟨y, ack, entry, rfl, hentry, hk, -, hviolates⟩
  cases packet with
  | connect => exact absurd rfl hconnect
  | publishAck ack' =>
      cases hevent
      exact ⟨ack, entry, rfl, hentry, hk, hviolates⟩
  | connack | suback | unsuback | pingreq | pingresp | disconnect | subscribe | unsubscribe
  | publish => cases hevent

/-- A connection that closes tells the session manager, which stops nothing. -/
theorem stopped_disconnectEvent {connections : Connections} {effects : List Effect}
    {m' : SessionManager} {reason : DisconnectReason}
    (h : server.sessionManager.perform connections (disconnectEvent x reason) =
      some (.ok (effects, m'))) : stopped effects k = false := by
  apply SessionManager.stopped_of_not_ack _ h
  rw [disconnectEvent]
  split <;> rfl

/-- A last will is published if the session manager learns of the loss of the client and
stores the last will. -/
theorem announced_iff {connections : Connections} {effects : List Effect} {m' : SessionManager}
    {reason : DisconnectReason} {p : Publish}
    (h : server.sessionManager.perform connections (disconnectEvent x reason) =
      some (.ok (effects, m'))) :
    .publish p ∈ effects ↔
      isUngraceful reason = true ∧ server.sessionManager.lastWillOf x = some p := by
  rw [disconnectEvent] at h
  cases hreason : isUngraceful reason with
  | true =>
      rw [hreason, if_pos rfl] at h
      rw [SessionManager.announced_of_ungraceful h]
      exact ⟨fun hwill => ⟨rfl, hwill⟩, And.right⟩
  | false =>
      rw [hreason, if_neg Bool.false_ne_true] at h
      cases h
      simp

/-- If connections close gracefully, their sessions are closed. -/
theorem closesSessions_of_outcome {maxRetries : Nat}
    (hrun : machine.Run (some (create maxRetries)) steps (some server))
    (h : server.Outcome kept event outputs after)
    (hgraceful : ClosesGracefully steps server event) :
    ClosesSessions steps server event outputs after := by
  intro k connect haccepted hopen hclosed hdisconnect
  have hclient := clientOf_of_acceptedOn hrun haccepted
  have hkeyed : after.Keyed := keyed_of_outcome (keyed_of_run hrun) h
  cases h with
  | accepted _ _ hafterOpen =>
      rw [hafterOpen, hopen, Bool.or_true] at hclosed
      cases hclosed
  | quiet _ _ _ _ _ _ _ _ hcloses =>
      rw [hcloses.isOpenAt, hopen] at hclosed
      cases hclosed
  | connected _ _ _ _ _ _ _ _ _ _ hafterOpen =>
      rw [hafterOpen, hopen] at hclosed
      cases hclosed
  | session event effects _ hinternal hperform hcloses =>
      have hack : event.isAck = false := by
        cases event with
        | clientAcked => cases hinternal
        | _ => rfl
      rw [hcloses.isOpenAt, hopen, SessionManager.stopped_of_not_ack hack hperform] at hclosed
      cases hclosed
  | handedOver j packet authenticated c clientId event effects _ _ hc hclientId hconnect _ hevent
      hperform hcloses =>
      have hstopped : stopped effects k = true := by
        rw [hcloses.isOpenAt, hopen, Bool.true_and, Bool.not_eq_false'] at hclosed
        exact hclosed
      rcases violates_of_stopped hconnect hevent hperform hstopped with
        ⟨ack, entry, rfl, hentry, rfl, hviolates⟩
      rw [hgraceful.acknowledged j ack authenticated c clientId entry rfl hc hclientId hentry
        hopen] at hviolates
      cases hviolates
  | closedUnknown j e c reason _ _ hc hclientId hreason hcloses =>
      rw [hcloses.isOpenAt, hopen, Bool.true_and, Bool.not_eq_false', beq_iff_eq] at hclosed
      subst hclosed
      rw [clientOf_eq hc, hclientId] at hclient
      cases hclient
  | closed j e c clientId reason effects writes _ hc hclientId hreason hperform hcloses hwrites =>
      rw [hcloses.isOpenAt, hopen, stopped_disconnectEvent hperform, Bool.true_and,
        Bool.false_or, Bool.not_eq_false', beq_iff_eq] at hclosed
      subst hclosed
      have hx : clientId = connect.clientId := by
        rw [clientOf_eq hc, hclientId] at hclient
        exact Option.some.inj (Option.some.inj hclient)
      subst hx
      constructor
      · have hgone : after.profile connect.clientId = none :=
          SessionManager.profile_of_ends hperform (ends_disconnectEvent _ reason)
        exact sessionConnection_ne_of_profile hkeyed ((hcloses.clientOf k).trans hclient) hgone
      · intro p hwill
        have hisOpen : c.isOpen = true := (isOpenAt_eq hc).symm.trans hopen
        have hne : ∀ authenticated, e ≠ .received .disconnect authenticated := by
          rintro authenticated rfl
          exact hdisconnect authenticated rfl
        have htold := hgraceful.told k e c connect reason p rfl hc hisOpen haccepted hreason hne
          hwill
        exact (effect_mem_iff hwrites).mpr ((announced_iff hperform).mpr htold)
  | stoppedAll _ hcloses hmanager =>
      rcases hgraceful.stoppedAll rfl k connect haccepted hopen with ⟨hsession, hwill⟩
      constructor
      · intro y hy
        rw [sessionConnection, hmanager] at hy
        exact hsession y hy
      · intro p hp
        rw [hwill] at hp
        cases hp

/-- An acknowledgement that is a protocol violation closes the connection of a session, which
stays. -/
theorem stopped_of_violates {ack : PublishAck} {authenticated : Bool} {c : MqttConnection}
    {entry : SessionEntry} {j : ConnectionId} (hc : server.connections[j]? = some c)
    (hclientId : c.clientId = some x)
    (hentry : server.sessionManager.sessions.lookup x = some entry)
    (hopen : server.isOpenAt entry.connection = true)
    (hviolates : entry.session.violates ack = true)
    (h : server.Outcome kept (.connection j (.received (.publishAck ack) authenticated)) outputs
      after) :
    after.isOpenAt entry.connection = false ∧ after.profile x = server.profile x := by
  cases h with
  | quiet _ _ c' _ _ hc' hreason halone =>
      rcases halone _ _ rfl with ⟨hconnect, -⟩ | hpingreq
      · cases ack <;> cases hconnect
      · cases ack <;> cases hpingreq
  | closed _ _ c' _ _ _ _ _ hc' _ hreason => cases hreason
  | closedUnknown _ _ c' _ _ _ hc' _ hreason => cases hreason
  | handedOver _ _ _ c' clientId event effects _ _ hc' hclientId' hconnect _ hevent hperform
      hcloses =>
      obtain rfl := Option.some.inj (hc.symm.trans hc')
      obtain rfl := Option.some.inj (hclientId.symm.trans hclientId')
      cases hevent
      have hstopped : stopped effects entry.connection = true :=
        (SessionManager.stopped_of_ack hperform).mpr
          ⟨entry, hentry, rfl, isSome_viewFrom hopen, hviolates⟩
      have hne : ∀ connect k, SessionManager.Event.clientAcked x ack ≠
          .clientConnected connect k := fun _ _ he => by cases he
      refine ⟨by rw [hcloses.isOpenAt, hstopped, Bool.not_true, Bool.and_false], ?_⟩
      rcases SessionManager.profile_of_perform (x := x) hperform hne with hsame | ⟨hends, -⟩
      · exact hsame
      · exact hends.elim

/-- A connection of a known client that closes has the session manager process this. -/
theorem perform_of_closeReason {e : ConnectionEvent} {c : MqttConnection}
    {reason : DisconnectReason} (hc : server.connections[k]? = some c)
    (hclientId : c.clientId = some x) (hreason : c.closeReason e = some reason)
    (h : server.Outcome kept (.connection k e) outputs after) :
    ∃ connections effects writes,
      server.sessionManager.perform connections (disconnectEvent x reason) =
        some (.ok (effects, after.sessionManager)) ∧
      outputs = effects.map .effect ++ writes ∧ ∀ output ∈ writes, IsWrite k output := by
  cases h with
  | quiet _ _ c' _ _ hc' hnone =>
      obtain rfl := Option.some.inj (hc.symm.trans hc')
      exact absurd (hreason.symm.trans hnone) (Option.some_ne_none _)
  | connected _ _ c' _ _ hc' hnone =>
      obtain rfl := Option.some.inj (hc.symm.trans hc')
      exact absurd (hclientId.symm.trans hnone) (Option.some_ne_none _)
  | handedOver _ packet authenticated c' _ _ _ _ _ hc' _ hnotConnect hnotDisconnect =>
      cases packet with
      | connect => exact absurd rfl hnotConnect
      | disconnect => exact absurd rfl hnotDisconnect
      | _ => cases hreason
  | closedUnknown _ _ c' _ _ _ hc' hnone =>
      obtain rfl := Option.some.inj (hc.symm.trans hc')
      exact absurd (hclientId.symm.trans hnone) (Option.some_ne_none _)
  | closed _ _ c' clientId reason' effects writes _ hc' hclientId' hreason' hperform hcloses
      hwrites =>
      obtain rfl := Option.some.inj (hc.symm.trans hc')
      obtain rfl := Option.some.inj (hclientId.symm.trans hclientId')
      obtain rfl := Option.some.inj (hreason.symm.trans hreason')
      exact ⟨_, effects, writes, hperform, rfl, hwrites⟩

/-- If their sessions are closed, connections close gracefully. -/
theorem closesGracefully_of_outcome {maxRetries : Nat}
    (hrun : machine.Run (some (create maxRetries)) steps (some server))
    (h : server.Outcome kept event outputs after)
    (hsessions : ClosesSessions steps server event outputs after) :
    ClosesGracefully steps server event where
  told k e c connect reason p he hc hisOpen haccepted hreason hdisconnect hwill := by
    subst he
    have hopen : server.isOpenAt k = true := (isOpenAt_eq hc).trans hisOpen
    have hclosed : after.isOpenAt k = false :=
      isOpenAt_of_closeReason hc (by rw [hreason]; exact Option.some_ne_none _) h
    have hmem := (hsessions k connect haccepted hopen hclosed (by
      intro authenticated he
      cases he
      exact hdisconnect authenticated rfl)).2 p hwill
    have hclient := clientOf_of_acceptedOn hrun haccepted
    rw [clientOf_eq hc] at hclient
    have hknown : c.clientId = some connect.clientId := Option.some.inj hclient
    rcases perform_of_closeReason hc hknown hreason h with
      ⟨connections, effects, writes, hperform, rfl, hwrites⟩
    exact (announced_iff hperform).mp ((effect_mem_iff hwrites).mp hmem)
  acknowledged j ack authenticated c x entry he hc hclientId hentry hopen := by
    subst he
    have hprofile : server.profile x = some (SessionManager.profileOf entry) :=
      profile_of_lookup hentry
    have hkeyed : server.Keyed := keyed_of_run hrun
    rcases acceptedOn_of_run hrun (hkeyed x _ hprofile).2 with ⟨connect, haccepted, -⟩
    apply Bool.eq_false_iff.mpr
    intro hviolates
    rcases stopped_of_violates hc hclientId hentry hopen hviolates h with ⟨hstops, hsame⟩
    have hgone := (hsessions entry.connection connect haccepted hopen hstops
      (fun _ he => by cases ack <;> cases he)).1 x
    rw [sessionConnection_eq, hsame, hprofile] at hgone
    exact hgone rfl
  stoppedAll he k connect haccepted hopen := by
    subst he
    cases h with
    | stoppedAll _ hcloses hmanager =>
        have hclosed : after.isOpenAt k = false := by
          rw [hcloses.isOpenAt, Bool.not_true, Bool.and_false]
        rcases hsessions k connect haccepted hopen hclosed (fun _ he => by cases he) with
          ⟨hgone, hpublished⟩
        constructor
        · intro x
          have hx := hgone x
          rw [sessionConnection, hmanager] at hx
          exact hx
        · cases hwill : carriedWill connect with
          | none => rfl
          | some p => cases hpublished p hwill

/-! ## Runs -/

/-- No connection closes without its session, in every step that does not fail. -/
def SessionsClosed (steps : List ServerStep) : Prop :=
  ∀ pre before kept event outputs after post,
    steps = pre ++ ⟨some before, (kept, event), .ok outputs, some after⟩ :: post →
      ClosesSessions pre before event outputs after

/-- Connections close gracefully in every step that does not fail. -/
def ClosedGracefully (steps : List ServerStep) : Prop :=
  ∀ pre before kept event outputs after post,
    steps = pre ++ ⟨some before, (kept, event), .ok outputs, some after⟩ :: post →
      ClosesGracefully pre before event

/-- No connection closes without its session exactly if all connections close gracefully. -/
theorem sessionsClosed_iff {maxRetries : Nat} {t : Option MqttServer}
    (h : machine.Run (some (create maxRetries)) steps t) :
    SessionsClosed steps ↔ ClosedGracefully steps := by
  have hstep : ∀ {pre before kept event outputs after post},
      steps = pre ++ ⟨some before, (kept, event), .ok outputs, some after⟩ :: post →
        machine.Run (some (create maxRetries)) pre (some before) ∧
          before.Outcome kept event outputs after := by
    intro pre before kept event outputs after post hsplit
    rcases h.split hsplit with ⟨hpre, hlast, -⟩
    rcases outcome_of_step hlast with ⟨outputs', houtputs, houtcome⟩
    cases houtputs
    exact ⟨hpre, houtcome⟩
  constructor
  · intro hsessions pre before kept event outputs after post hsplit
    rcases hstep hsplit with ⟨hpre, houtcome⟩
    exact closesGracefully_of_outcome hpre houtcome
      (hsessions pre before kept event outputs after post hsplit)
  · intro hgraceful pre before kept event outputs after post hsplit
    rcases hstep hsplit with ⟨hpre, houtcome⟩
    exact closesSessions_of_outcome hpre houtcome
      (hgraceful pre before kept event outputs after post hsplit)

/-- A CONNECT of client {lit}`x` with a last will. -/
def willConnect : Connect :=
  ⟨19, [0x4D, 0x51, 0x54, 0x54], 4, 0x06, 0, [0x78], some [0x61], some [0x62], none, none,
    fun _ => ⟨rfl, rfl⟩⟩

/-- A client with a last will acknowledges a PUBLISH that it has not been sent.  Afterwards all
handlers of its connection run. -/
def violationRun : Option (List ServerStep × Option MqttServer) :=
  machine.exec (some (create 3))
    ([(fun _ => false, .accepted)] ++ receives 0 (.connect willConnect) ++
      receives 0 (.publishAck (.puback 1)) ++
      [(fun _ => false, .connection 0 (.written 0 true)),
        (fun _ => false, .connection 0 .connectionTimerAborted)])

theorem violationRun_isSome : violationRun.isSome = true := rfl

/-- The packets that are published in a step. -/
def announced (step : ServerStep) : List Publish :=
  match step.output with
  | .ok outputs => outputs.filterMap fun
      | .effect (.publish p) => some p
      | _ => none
  | .error _ => []

/-- The session of a client that violates the protocol with a PUBACK stays in the store for good,
and its last will is never published. -/
theorem not_sessionsClosed_violation : ∃ steps server,
    machine.Run (some (create 3)) steps (some server) ∧ ¬ SessionsClosed steps ∧
      (server.connections.map MqttConnection.alive = [false] ∧
        server.sessionConnection [0x78] = some 0 ∧ steps.flatMap announced = []) := by
  have hrun : machine.Run (some (create 3)) (violationRun.get violationRun_isSome).1
      (violationRun.get violationRun_isSome).2 :=
    Machine.run_exec (Option.some_get violationRun_isSome).symm
  have hlast : ∃ server, (violationRun.get violationRun_isSome).2 = some server ∧
      server.connections.map MqttConnection.alive = [false] ∧
        server.sessionConnection [0x78] = some 0 := ⟨_, rfl, rfl, rfl⟩
  rcases hlast with ⟨server, hserver, hdead, hsession⟩
  rw [hserver] at hrun
  have hsilent : (violationRun.get violationRun_isSome).1.flatMap announced = [] := rfl
  refine ⟨(violationRun.get violationRun_isSome).1, server, hrun, ?_, hdead, hsession, hsilent⟩
  have hstep : ∃ pre before kept outputs after post,
      (violationRun.get violationRun_isSome).1 = pre ++ ⟨some before,
        (kept, .connection 0 (.received (.publishAck (.puback 1)) true)), .ok outputs,
          some after⟩ :: post ∧
      AcceptedOn pre 0 willConnect ∧ before.isOpenAt 0 = true ∧ after.isOpenAt 0 = false ∧
        after.sessionConnection [0x78] = some 0 :=
    ⟨(violationRun.get violationRun_isSome).1.take 4, _, _, _, _, _, rfl,
      ⟨_, _, _, _, List.mem_of_getElem? (i := 2) rfl, rfl⟩, rfl, rfl, rfl⟩
  rcases hstep with ⟨pre, before, kept, outputs, after, post, hsplit, haccepted, hopen, hclosed,
    hkept⟩
  intro hsessions
  exact (hsessions pre before kept _ outputs after post hsplit 0 willConnect haccepted hopen
    hclosed (fun _ he => by cases he)).1 [0x78] hkept

/-- A client with a last will sends what is not MQTT. -/
def malformedRun : Option (List ServerStep × Option MqttServer) :=
  machine.exec (some (create 3))
    ([(fun _ => false, .accepted)] ++ receives 0 (.connect willConnect) ++
      [(fun _ => false, .connection 0 .frameArrives),
        (fun _ => false, .connection 0 .malformed)])

theorem malformedRun_isSome : malformedRun.isSome = true := rfl

theorem sessionsClosed_malformedRun : ∃ steps t, machine.Run (some (create 3)) steps t ∧
    (steps.flatMap announced).length = 1 ∧ (SessionsClosed steps ↔ ClosedGracefully steps) := by
  have hrun : machine.Run (some (create 3)) (malformedRun.get malformedRun_isSome).1
      (malformedRun.get malformedRun_isSome).2 :=
    Machine.run_exec (Option.some_get malformedRun_isSome).symm
  exact ⟨_, _, hrun, rfl, sessionsClosed_iff hrun⟩

end MqttServer

end Server
end WallyIo
