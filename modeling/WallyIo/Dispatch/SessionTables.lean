import WallyIo.Dispatch.ManagerSteps
import WallyIo.Dispatch.RxTable

/-!
# The incoming publications of all sessions

Every session of the session manager has a table of incoming publications.  An event makes at
most one of these tables take a step, and new sessions begin with an empty one.

Main results:

- Theorem {lit}`tables_of_perform`: what an event does to the tables.
- Theorem {lit}`reached_of_run`: every table is reached by a run of its own.
- Theorem {lit}`ignores_copies_of_run`: when a session ignores nothing but copies.
-/

namespace WallyIo
namespace Dispatch

open Protocol Library

/-! ## One session -/

namespace MqttClientSession

variable {s s' : MqttClientSession} {connected : Bool} {calls : List SenderCall}

/-- The table of incoming publications is kept or takes a step. -/
def RxStep (s s' : MqttClientSession) : Prop :=
  s'.rxInFlightPublications = s.rxInFlightPublications ∨
    ∃ e calls, RxTable.step s.rxInFlightPublications e =
      some (.ok (calls, s'.rxInFlightPublications))

theorem rxStep_clientSentPublish {b : Bool} {p : Publish}
    (h : s.clientSentPublish connected p = .ok (b, calls, s')) : s.RxStep s' := by
  obtain ⟨t, ht, rfl⟩ := clientSentPublish_eq_ok_iff.mp h
  refine Or.inr ⟨.publish connected p, calls, ?_⟩
  rw [RxTable.step, ht]
  rfl

theorem rxStep_clientReleasedPublish {i : UInt16}
    (h : s.clientReleasedPublish connected i = .ok (calls, s')) : s.RxStep s' := by
  obtain ⟨t, ht, rfl⟩ := clientReleasedPublish_eq_ok_iff.mp h
  exact Or.inr ⟨.pubrel connected i, calls, congrArg some ht⟩

theorem rxStep_responseReceived {ack : PublishAck}
    (h : s.responseReceived connected ack = .ok (calls, s')) : s.RxStep s' :=
  Or.inl (responseReceived_frame h)

theorem rxStep_txTimerElapses {i : UInt16} (h : s.txTimerElapses i = some s') : s.RxStep s' :=
  Or.inl (txTimerElapses_frame h)

theorem rxStep_txTimeout {i : UInt16} (h : s.txTimeout i = some (.ok (calls, s'))) :
    s.RxStep s' :=
  Or.inl (txTimeout_frame h)

theorem rxStep_rxTimerElapses {i : UInt16} (h : s.rxTimerElapses i = some s') : s.RxStep s' := by
  obtain ⟨t, ht, rfl⟩ := rxTimerElapses_eq_some_iff.mp h
  refine Or.inr ⟨.timerElapses i, [], ?_⟩
  rw [RxTable.step, ht]
  rfl

theorem rxStep_rxTimeout {i : UInt16} (h : s.rxTimeout i = some (.ok (calls, s'))) :
    s.RxStep s' := by
  obtain ⟨t, ht, rfl⟩ := rxTimeout_eq_ok_iff.mp h
  exact Or.inr ⟨.timeout i, calls, ht⟩

end MqttClientSession

/-! ## All sessions -/

namespace SessionManager

variable {m m' m'' : SessionManager} {connections : Connections} {event : Event}
  {effects : List Effect} {x : Bytes} {entry : SessionEntry}

/-- The table of incoming publications of a client's session. -/
def rxTable (m : SessionManager) (x : Bytes) : Option RxInFlightPublications :=
  (m.sessions.lookup x).map fun entry => entry.session.rxInFlightPublications

/-- How a table comes about in an event. -/
inductive TableStep (maxRetries : Nat) :
    Option RxInFlightPublications → RxInFlightPublications → Prop
  | created (before : Option RxInFlightPublications) :
      TableStep maxRetries before (.create maxRetries)
  | kept (t : RxInFlightPublications) : TableStep maxRetries (some t) t
  | stepped {t t' : RxInFlightPublications} (e : RxTable.Event) (calls : List SenderCall)
      (h : RxTable.step t e = some (.ok (calls, t'))) : TableStep maxRetries (some t) t'

/-- What an event does to all tables. -/
structure TablesStep (m m' : SessionManager) : Prop where
  maxRetries : m'.maxRetries = m.maxRetries
  tables : ∀ x t', m'.rxTable x = some t' → TableStep m.maxRetries (m.rxTable x) t'

/-- Sessions may have been removed, and the tables of the others are as before. -/
structure TablesKept (m m' : SessionManager) : Prop where
  maxRetries : m'.maxRetries = m.maxRetries
  tables : ∀ x t, m'.rxTable x = some t → m.rxTable x = some t

theorem TablesKept.refl (m : SessionManager) : TablesKept m m := ⟨rfl, fun _ _ h => h⟩

theorem TablesKept.trans (h : TablesKept m m') (h' : TablesKept m' m'') : TablesKept m m'' :=
  ⟨h'.maxRetries.trans h.maxRetries, fun x t ht => h.tables x t (h'.tables x t ht)⟩

/-- Keeping the tables is a step. -/
theorem TablesKept.step (h : TablesKept m m') : TablesStep m m' := by
  refine ⟨h.maxRetries, ?_⟩
  intro x t ht
  rw [h.tables x t ht]
  exact .kept t

/-- After a step the tables may be kept. -/
theorem TablesStep.trans_kept (h : TablesStep m m') (h' : TablesKept m' m'') :
    TablesStep m m'' :=
  ⟨h'.maxRetries.trans h.maxRetries, fun x t ht => h.tables x t (h'.tables x t ht)⟩

/-- Other parts of the session manager do not matter. -/
theorem tablesKept_of_sessions (hmax : m'.maxRetries = m.maxRetries)
    (hsessions : m'.sessions = m.sessions) : TablesKept m m' := by
  refine ⟨hmax, ?_⟩
  intro x t ht
  rw [rxTable, hsessions] at ht
  exact ht

theorem tablesKept_remove (m : SessionManager) (x : Bytes) : TablesKept m (m.remove x) := by
  refine ⟨rfl, ?_⟩
  intro y t ht
  rw [rxTable, sessions_remove, Table.lookup_erase] at ht
  split at ht
  · cases ht
  · exact ht

theorem rxTable_of_lookup (hentry : m.sessions.lookup x = some entry) :
    m.rxTable x = some entry.session.rxInFlightPublications := by
  rw [rxTable, hentry, Option.map_some]

/-- The table of a session that has changed. -/
theorem rxTable_update (s : MqttClientSession) (y : Bytes) :
    (m.update x s).rxTable y =
      if y = x then (m.rxTable x).map fun _ => s.rxInFlightPublications else m.rxTable y := by
  rw [rxTable, lookup_update]
  split
  · rename_i hy
    rw [hy, rxTable, Option.map_map, Option.map_map]
    rfl
  · rfl

/-- A session whose table is kept. -/
theorem tablesKept_update {s : MqttClientSession}
    (h : ∀ t, m.rxTable x = some t → s.rxInFlightPublications = t) :
    TablesKept m (m.update x s) := by
  refine ⟨maxRetries_update s, ?_⟩
  intro y t ht
  rw [rxTable_update] at ht
  split at ht
  · rename_i hy
    obtain ⟨t', ht', rfl⟩ := Option.map_eq_some_iff.mp ht
    rw [hy, ht', h t' ht']
  · exact ht

/-- A session whose table takes a step. -/
theorem tablesStep_update {s : MqttClientSession} (hentry : m.sessions.lookup x = some entry)
    (h : entry.session.RxStep s) : TablesStep m (m.update x s) := by
  have htable := rxTable_of_lookup hentry
  rcases h with hsame | ⟨e, calls, hstep⟩
  · refine (tablesKept_update fun t ht => ?_).step
    rw [hsame]
    exact Option.some.inj (htable.symm.trans ht)
  · refine ⟨maxRetries_update s, ?_⟩
    intro y t ht
    rw [rxTable_update] at ht
    split at ht
    · rename_i hy
      rw [htable] at ht
      cases ht
      rw [hy, htable]
      exact .stepped e calls hstep
    · rw [ht]
      exact .kept t

/-! ## Events -/

/-- Publishing to the subscribers does not concern what they publish. -/
theorem tablesKept_publish {p p' : Publish}
    (h : m.publish connections p = .ok (effects, p', m')) : TablesKept m m' := by
  obtain ⟨calls, hloop, rfl⟩ := publish_eq_ok_iff_publishTo.mp h
  refine publishTo_invariant (fun _ _ t => TablesKept m t) [] ?_ (TablesKept.refl m) hloop
  intro pre p t x q entry calls p' session hkept _ hentry hpublish
  refine hkept.trans (tablesKept_update fun t ht => ?_)
  rw [MqttClientSession.publish_frame hpublish]
  exact Option.some.inj ((rxTable_of_lookup hentry).symm.trans ht)

/-- The retained messages that a subscriber is handed do not concern what it publishes. -/
theorem rx_of_publishRetained {isConnected : Bool} {messages : List (Publish × QoS)}
    {r r' : RetainedMessages} {s s' : MqttClientSession} {calls : List SenderCall}
    (h : publishRetained isConnected messages r s = .ok (calls, r', s')) :
    s'.rxInFlightPublications = s.rxInFlightPublications := by
  induction messages generalizing r s calls with
  | nil =>
      cases h
      rfl
  | cons message rest ih =>
      obtain ⟨-, hpublish⟩ := assert_bind_eq_ok_iff.mp h
      obtain ⟨⟨calls₁, p, s₁⟩, hsession, hloop⟩ := bind_eq_ok_iff.mp hpublish
      obtain ⟨⟨calls₂, r₂, s₂⟩, hrest, hresult⟩ := bind_eq_ok_iff.mp hloop
      cases hresult
      exact (ih hrest).trans (MqttClientSession.publish_frame hsession)

/-- A packet that is sent does not concern the tables, unless the session is destroyed. -/
theorem tablesKept_send (connections : Connections) (m : SessionManager) (x : Bytes)
    (entry : SessionEntry) (packet : MqttPacket) :
    TablesKept m (m.send connections x entry packet).2 := by
  unfold send
  split
  · exact TablesKept.refl m
  · exact tablesKept_remove m _

theorem tablesKept_clientSubscribed {subscribe : Subscribe}
    (h : m.clientSubscribed connections x subscribe = .ok (effects, m')) : TablesKept m m' := by
  simp only [clientSubscribed] at h
  generalize hafter : ({ m with
    topicSubscriptions := (m.topicSubscriptions.subscribe x subscribe).2 } : SessionManager) = t
    at h
  have hkept : TablesKept m t := by
    rw [← hafter]
    exact tablesKept_of_sessions rfl rfl
  split at h
  · rename_i entry hentry
    obtain ⟨⟨calls, r, session⟩, hloop, hresult⟩ := bind_eq_ok_iff.mp h
    cases hresult
    have hsent := tablesKept_send connections t x entry
      (.suback (m.topicSubscriptions.subscribe x subscribe).1)
    refine hkept.trans (hsent.trans (TablesKept.trans (tablesKept_update fun r hr => ?_)
      (tablesKept_of_sessions rfl rfl)))
    -- unless the session has been destroyed meanwhile it has the table that it had
    rw [rx_of_publishRetained hloop]
    exact Option.some.inj
      ((rxTable_of_lookup hentry).symm.trans (hkept.tables x r (hsent.tables x r hr)))
  · cases h
    exact hkept

theorem tablesKept_clientUnsubscribed {unsubscribe : Unsubscribe}
    (h : m.clientUnsubscribed connections x unsubscribe = (effects, m')) : TablesKept m m' := by
  simp only [clientUnsubscribed] at h
  split at h
  · rename_i entry hentry
    have hkept : TablesKept m { m with topicSubscriptions :=
      (m.topicSubscriptions.unsubscribe x unsubscribe).2 } := tablesKept_of_sessions rfl rfl
    have hsent := hkept.trans (tablesKept_send connections _ x entry
      (.unsuback (m.topicSubscriptions.unsubscribe x unsubscribe).1))
    rw [h] at hsent
    exact hsent
  · cases h
    exact tablesKept_of_sessions rfl rfl

/-- A client that publishes makes its own table take a step. -/
theorem tablesStep_clientSentPublish {p p' : Publish}
    (hentry : m.sessions.lookup x = some entry)
    (h : m.clientSentPublish connections x entry p = .ok (effects, p', m')) :
    TablesStep m m' := by
  obtain ⟨⟨b, calls, session⟩, hsession, hrest⟩ := bind_eq_ok_iff.mp h
  have hstep := tablesStep_update hentry (MqttClientSession.rxStep_clientSentPublish hsession)
  cases b with
  | true =>
      obtain ⟨⟨more, published, m''⟩, hpublish, hresult⟩ := bind_eq_ok_iff.mp hrest
      cases hresult
      exact hstep.trans_kept (tablesKept_publish hpublish)
  | false =>
      cases hrest
      exact hstep

theorem tablesStep_clientPublished {p : Publish}
    (h : m.clientPublished connections x p = .ok (effects, m')) : TablesStep m m' := by
  simp only [clientPublished] at h
  split at h
  · rename_i entry hentry
    split at h
    · obtain ⟨⟨calls, p', m''⟩, hsent, hrest⟩ := bind_eq_ok_iff.mp h
      obtain ⟨r, -, hresult⟩ := bind_eq_ok_iff.mp hrest
      cases hresult
      exact (tablesStep_clientSentPublish hentry hsent).trans_kept
        (tablesKept_of_sessions rfl rfl)
    · obtain ⟨⟨calls, p', m''⟩, hsent, hresult⟩ := bind_eq_ok_iff.mp h
      cases hresult
      exact tablesStep_clientSentPublish hentry hsent
  · cases h
    exact (TablesKept.refl m).step

/-- A session that answers its client takes a step with its table. -/
theorem tablesStep_onSession
    {answer : Bool → MqttClientSession → Except Fault (List SenderCall × MqttClientSession)}
    (hanswer : ∀ isConnected s calls s', answer isConnected s = .ok (calls, s') → s.RxStep s')
    (h : m.onSession connections x answer = .ok (effects, m')) : TablesStep m m' := by
  rcases onSession_eq_ok_iff.mp h with
    ⟨entry, calls, session, hentry, hsession, -, rfl⟩ | ⟨-, -, rfl⟩
  · exact tablesStep_update hentry (hanswer _ _ _ _ hsession)
  · exact (TablesKept.refl m').step

/-- A session whose timer elapses takes a step with its table. -/
theorem tablesStep_timerElapses {elapses : MqttClientSession → Option MqttClientSession}
    (helapses : ∀ s s', elapses s = some s' → s.RxStep s')
    (h : m.timerElapses x elapses = some m') : TablesStep m m' := by
  obtain ⟨entry, session, hentry, hsession, rfl⟩ := timerElapses_eq_some_iff.mp h
  exact tablesStep_update hentry (helapses _ _ hsession)

theorem tablesStep_timeout
    {handler : MqttClientSession → Option (Except Fault (List SenderCall × MqttClientSession))}
    (hhandler : ∀ s calls s', handler s = some (.ok (calls, s')) → s.RxStep s')
    (h : m.timeout x handler = some (.ok (effects, m'))) : TablesStep m m' := by
  obtain ⟨entry, calls, session, hentry, hsession, -, rfl⟩ := timeout_eq_ok_iff.mp h
  exact tablesStep_update hentry (hhandler _ _ _ hsession)

theorem tablesKept_clientDisconnectedUngracefully {reason : DisconnectReason}
    (h : m.clientDisconnectedUngracefully connections x reason = .ok (effects, m')) :
    TablesKept m m' := by
  rcases clientDisconnectedUngracefully_eq_ok_iff.mp h with
    ⟨entry, lwt, p, -, -, hpublish⟩ | ⟨entry, -, -, -, rfl⟩ | ⟨-, -, rfl⟩
  · exact (tablesKept_remove m x).trans (tablesKept_publish hpublish)
  · exact tablesKept_remove m x
  · exact TablesKept.refl m'

/-- A new session begins with an empty table. -/
theorem tablesStep_clientConnected {connect : Connect} {connection : ConnectionId}
    (h : m.clientConnected connections connect connection = .ok m') : TablesStep m m' := by
  rcases clientConnected_eq_ok_iff.mp h with
    ⟨y, -, hlookup, rfl⟩ | ⟨y, entry, -, -, rfl⟩ | ⟨-, rfl⟩
  · refine ⟨rfl, ?_⟩
    intro x t ht
    rw [rxTable, Table.lookup_insert] at ht
    split at ht
    · cases ht
      exact .created _
    · rw [rxTable, ht]
      exact .kept t
  · exact (TablesKept.refl m').step
  · exact (TablesKept.refl m').step

/-- What an event does to the tables. -/
theorem tables_of_perform (h : m.perform connections event = some (.ok (effects, m'))) :
    TablesStep m m' := by
  cases event with
  | clientConnected connect connection =>
      rw [perform, Option.some.injEq] at h
      obtain ⟨m'', hconnected, hresult⟩ := map_eq_ok_iff.mp h
      cases hresult
      exact tablesStep_clientConnected hconnected
  | clientDisconnected x reason =>
      cases h
      exact (tablesKept_remove m x).step
  | clientSubscribed x subscribe =>
      exact (tablesKept_clientSubscribed (Option.some.inj h)).step
  | clientUnsubscribed x unsubscribe =>
      exact (tablesKept_clientUnsubscribed (Except.ok.inj (Option.some.inj h))).step
  | clientPublished x p => exact tablesStep_clientPublished (Option.some.inj h)
  | clientAcked x ack =>
      rw [perform, Option.some.injEq] at h
      cases ack with
      | puback i | pubrec i | pubcomp i =>
          simp only [clientAcked, clientAckedPublish, clientReceivedPublish,
            clientCompletedPublish] at h
          refine tablesStep_onSession ?_ h
          exact fun _ _ _ _ hsession => MqttClientSession.rxStep_responseReceived hsession
      | pubrel i =>
          simp only [clientAcked, clientReleasedPublish] at h
          refine tablesStep_onSession ?_ h
          exact fun _ _ _ _ hsession => MqttClientSession.rxStep_clientReleasedPublish hsession
  | clientDisconnectedUngracefully x reason =>
      exact (tablesKept_clientDisconnectedUngracefully (Option.some.inj h)).step
  | destroy x =>
      cases h
      exact (tablesKept_remove m x).step
  | txTimerElapses x i =>
      obtain ⟨m'', hm, hresult⟩ := Option.map_eq_some_iff.mp h
      cases hresult
      exact tablesStep_timerElapses (fun _ _ h => MqttClientSession.rxStep_txTimerElapses h) hm
  | txTimeout x i =>
      exact tablesStep_timeout (fun _ _ _ h => MqttClientSession.rxStep_txTimeout h) h
  | rxTimerElapses x i =>
      obtain ⟨m'', hm, hresult⟩ := Option.map_eq_some_iff.mp h
      cases hresult
      exact tablesStep_timerElapses (fun _ _ h => MqttClientSession.rxStep_rxTimerElapses h) hm
  | rxTimeout x i =>
      exact tablesStep_timeout (fun _ _ _ h => MqttClientSession.rxStep_rxTimeout h) h
  | subscriptionsReordered order =>
      simp only [perform] at h
      split at h
      · cases h
        apply TablesKept.step
        exact tablesKept_of_sessions rfl rfl
      · cases h
  | messagesReordered order =>
      simp only [perform] at h
      split at h
      · cases h
        apply TablesKept.step
        exact tablesKept_of_sessions rfl rfl
      · cases h

/-! ## Runs -/

/-- A table that is reached by a run of its own. -/
def Reached (maxRetries : Nat) (t : RxInFlightPublications) : Prop :=
  ∃ steps, RxTable.table.Run (some (.create maxRetries)) steps (some t)

theorem TableStep.reached {maxRetries : Nat} {before : Option RxInFlightPublications}
    {t : RxInFlightPublications} (h : TableStep maxRetries before t)
    (hbefore : ∀ t, before = some t → Reached maxRetries t) : Reached maxRetries t := by
  cases h with
  | created => exact ⟨[], .nil _⟩
  | kept => exact hbefore t rfl
  | @stepped s _ e calls hstep =>
      obtain ⟨steps, hrun⟩ := hbefore s rfl
      have hnext : RxTable.table.step (some s) e = some (.ok calls, some t) :=
        Machine.ofFallible_step_alive_iff.mpr ⟨calls, hstep, rfl⟩
      exact ⟨_, hrun.append (.single hnext)⟩

/-- Every table of a session is reached by a run of its own. -/
theorem reached_of_run {maxRetries : Nat} {steps : List ManagerStep} {t : Option SessionManager}
    (h : machine.Run (some (create maxRetries)) steps t) :
    ∀ m, t = some m → m.maxRetries = maxRetries ∧
      ∀ x r, m.rxTable x = some r → Reached maxRetries r := by
  rintro m rfl
  refine h.alive_invariant (fun _ => rfl) (fun _ => True) (fun _ m => m.maxRetries = maxRetries ∧
    ∀ x r, m.rxTable x = some r → Reached maxRetries r) ?_ ?_ (fun _ _ => trivial)
  · refine ⟨rfl, ?_⟩
    intro x r hr
    cases hr
  · rintro pre m ⟨connections, event⟩ o m' - ⟨hmax, htables⟩ hstep -
    obtain ⟨effects, hperform, -⟩ := Machine.ofFallible_step_alive_iff.mp hstep
    have hafter := tables_of_perform hperform
    refine ⟨hafter.maxRetries.trans hmax, ?_⟩
    intro x r hr
    have hmade := hafter.tables x r hr
    rw [hmax] at hmade
    exact hmade.reached (htables x)

/-- When a session ignores nothing but copies, in every state of the session manager that is
reached. -/
theorem ignores_copies_of_run {maxRetries : Nat} {steps : List ManagerStep}
    (h : machine.Run (some (create maxRetries)) steps (some m))
    (hentry : m.sessions.lookup x = some entry) {p : Publish} (hp : Codec.Decodable p) :
    RxTable.IgnoresCopies entry.session (connected connections entry) p ↔
      (p.qos = .atMostOnce →
        entry.session.rxInFlightPublications.publications.lookup 0 = none) ∧
        (p.qos = .atLeastOnce →
          entry.session.rxInFlightPublications.publications.lookup p.packetIdentifier = none) := by
  obtain ⟨-, htables⟩ := reached_of_run h m rfl
  obtain ⟨steps', hrun⟩ := htables x _ (rxTable_of_lookup hentry)
  obtain ⟨t, ht, hwell⟩ := RxTable.exists_wellFormed_of_run hrun
  cases ht
  exact RxTable.ignoresCopies_iff hwell hp

end SessionManager

end Dispatch
end WallyIo
