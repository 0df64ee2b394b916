import WallyIo.Dispatch.FreshSessions

/-!
# Where the packets come from

Whatever a client is sent stems from a packet that a client has published, or from the last
will of a client that has connected: directly, by way of the retained messages or by way of
the publications in flight.

Main results:

- Theorem {lit}`stems_of_perform`: what an event keeps and sends stems from the same packets.
- Theorem {lit}`transmitted_of_run`: every packet that is sent stems from one that has come in
  before.
- Theorem {lit}`accepted_of_run`: if all packets that come in are sendable, the decoder of the
  server accepts all packets that are sent.
-/

namespace WallyIo
namespace Dispatch

open Protocol Library Codec

/-! ## One session -/

/-- A packet is sent on behalf of one of some packets. -/
def StemsFrom (sources : Publish → Prop) (p : Publish) : Prop :=
  ∃ source qos, sources source ∧ qos ≠ .reserved ∧ Transmitted source qos p

/-- A reaction leaves what is sent on behalf of the same packet. -/
theorem Transmitted.keeps {source : Publish} {entry after : TxEntry}
    (h : Transmitted source entry.level entry.publish) (hkeeps : entry.Keeps after) :
    Transmitted source after.level after.publish := by
  rw [hkeeps.level]
  rcases hkeeps.publish with hsame | ⟨hlevel, hdup⟩
  · rw [hsame]
    exact h
  · rw [hlevel] at h ⊢
    rw [hdup]
    exact h.retry

/-- What is sent on behalf of packets that become too long for no subscriber is encoded. -/
theorem StemsFrom.encodable {sources : Publish → Prop} {p : Publish} (h : StemsFrom sources p)
    (hfits : ∀ source, sources source → Fits source .exactlyOnce) : Encodable (.publish p) := by
  obtain ⟨source, qos, hsource, -, htransmitted⟩ := h
  obtain ⟨hencodable, hlength⟩ := hfits source hsource
  obtain ⟨htopic, hannounced, -⟩ := encodable_publish_iff.mp hencodable
  have hfacts := htransmitted.facts
  refine encodable_publish_iff.mpr ⟨hfacts.topic ▸ htopic, hfacts.announced hannounced, ?_⟩
  rw [hfacts.bodyLength_eq]
  exact (bodyLength_le_exactlyOnce source qos).trans hlength

theorem level_ne_reserved (entry : TxEntry) : entry.level ≠ .reserved := by
  cases entry <;> simp [TxEntry.level]

namespace MqttClientSession

/-- The last will of a session is one of some packets, and its publications in flight stem
from them. -/
structure Stems (sources : Publish → Prop) (s : MqttClientSession) : Prop where
  lastWill : ∀ source, s.lastWill = some source → sources source
  wellFormed : TxTable.WellFormed s.txInFlightPublications
  inFlight : ∀ i entry, s.txInFlightPublications.publications.lookup i = some entry →
    ∃ source, sources source ∧ Transmitted source entry.level entry.publish

variable {sources : Publish → Prop} {s s' : MqttClientSession} {calls : List SenderCall}

/-- A session that answers its client sends again what it has in flight. -/
theorem Stems.advances (h : s.Stems sources) (hadvances : s.Advances calls s') :
    s'.Stems sources ∧ ∀ p, .publish p ∈ sentPackets calls → StemsFrom sources p := by
  cases hadvances with
  | rx hcalls t =>
      exact ⟨⟨h.lastWill, h.wellFormed, h.inFlight⟩, fun p hp => absurd hp (hcalls p)⟩
  | tx e he hstep =>
      refine ⟨⟨h.lastWill, h.wellFormed.change (TxTable.step_change h.wellFormed hstep), ?_⟩, ?_⟩
      · intro i after hafter
        rcases TxTable.entry_of_step h.wellFormed he hstep hafter with ⟨entry, hentry, hkeeps⟩
        rcases h.inFlight i entry hentry with ⟨source, hsource, htransmitted⟩
        exact ⟨source, hsource, htransmitted.keeps hkeeps⟩
      · intro p hp
        rcases TxTable.resent_of_step h.wellFormed he hstep hp with
          ⟨entry, after, hentry, hkeeps, rfl⟩
        rcases h.inFlight _ entry hentry with ⟨source, hsource, htransmitted⟩
        exact ⟨source, after.level, hsource, level_ne_reserved after,
          htransmitted.keeps hkeeps⟩

/-- A session that is handed a packet sends the packet or a copy, and keeps the copy. -/
theorem Stems.publish (h : s.Stems sources) {source p p' : Publish} {qos : QoS}
    {connected : Bool} (hsource : sources source) (hshared : Shared source p)
    (hpublish : s.publish connected p qos = .ok (calls, p', s')) :
    s'.Stems sources ∧ ∀ out, .publish out ∈ sentPackets calls → StemsFrom sources out := by
  rcases publish_eq_ok_iff.mp hpublish with ⟨t, ht, rfl⟩
  have hwell : TxTable.WellFormed t := h.wellFormed.change (TxTable.change_of_publish ht)
  cases TxInFlightPublications.publishes_of_publish ht with
  | nothing =>
      exact ⟨⟨h.lastWill, hwell, h.inFlight⟩, fun out hout => absurd hout List.not_mem_nil⟩
  | itself outgoing hset =>
      refine ⟨⟨h.lastWill, hwell, h.inFlight⟩, ?_⟩
      intro out hout
      have hsent : out = p' := by simpa using hout
      rw [hsent]
      exact ⟨source, .atMostOnce, hsource, by decide, .itself hshared hset⟩
  | copy _ hqos outgoing hset hfree =>
      have hcopy : Transmitted source qos outgoing := .copy hshared hqos _ hset
      refine ⟨⟨h.lastWill, hwell, ?_⟩, ?_⟩
      · intro i entry hentry
        rw [tx_withTx, TxInFlightPublications.publications_update, Table.lookup_insert] at hentry
        split at hentry
        · cases hentry
          refine ⟨source, hsource, ?_⟩
          rw [TxTable.level_startedEntry _ _ hqos, TxTable.publish_startedEntry]
          exact hcopy
        · exact h.inFlight i entry hentry
      · intro out hout
        have hsent : out = outgoing := by simpa using hout
        rw [hsent]
        exact ⟨source, qos, hsource, by rcases hqos with rfl | rfl <;> decide, hcopy⟩

/-- More packets may have come in. -/
theorem Stems.mono {sources' : Publish → Prop} (h : s.Stems sources)
    (hsub : ∀ p, sources p → sources' p) : s.Stems sources' where
  lastWill source hwill := hsub source (h.lastWill source hwill)
  wellFormed := h.wellFormed
  inFlight i entry hentry := by
    rcases h.inFlight i entry hentry with ⟨source, hsource, htransmitted⟩
    exact ⟨source, hsub source hsource, htransmitted⟩

end MqttClientSession

/-! ## All sessions -/

namespace SessionManager

/-- The packets that come in with an event: what a client publishes, and the last will of a
client that connects. -/
inductive Event.Brings : Event → Publish → Prop
  | published (sender : Bytes) (source : Publish) :
      Event.Brings (.clientPublished sender source) source
  | lastWill (connect : Connect) (connection : ConnectionId) (maxRetries : Nat)
      (source : Publish)
      (h : (MqttClientSession.clientConnected maxRetries connect).lastWill = some source) :
      Event.Brings (.clientConnected connect connection) source

/-- What a session manager keeps stems from some packets. -/
structure Stems (sources : Publish → Prop) (m : SessionManager) : Prop where
  stored : ∀ p ∈ m.retainedMessages.messages, ∃ source, sources source ∧ Shared source p
  sessions : ∀ x entry, m.sessions.lookup x = some entry → entry.session.Stems sources

variable {sources : Publish → Prop} {connections : Connections} {start m m' : SessionManager}
  {event : Event} {effects : List Effect} {x : Bytes}

/-- A session may be replaced. -/
theorem Stems.update {session : MqttClientSession} (h : Stems sources m)
    (hsession : session.Stems sources) : Stems sources (m.update x session) where
  stored := by
    rw [retainedMessages_update]
    exact h.stored
  sessions y entry hentry := by
    by_cases hyx : y = x
    · subst hyx
      cases hlookup : m.sessions.lookup y with
      | none =>
          rw [update_of_none hlookup, hlookup] at hentry
          cases hentry
      | some before =>
          rw [lookup_update_self hlookup] at hentry
          cases hentry
          exact hsession
    · rw [lookup_update_of_ne _ hyx] at hentry
      exact h.sessions y entry hentry

/-- The session of a client that has just connected. -/
theorem Stems.created (h : Stems sources m) {connect : Connect} {k : ConnectionId}
    (hbrings : ∀ p, Event.Brings (.clientConnected connect k) p → sources p) :
    Stems sources { m with
      sessions := m.sessions.insert x
        ⟨k, MqttClientSession.clientConnected m.maxRetries connect⟩ } where
  stored := h.stored
  sessions y entry hentry := by
    rw [Table.lookup_insert] at hentry
    split at hentry
    · cases hentry
      refine ⟨?_, ?_, ?_⟩
      · exact fun source hwill => hbrings source (.lastWill connect k m.maxRetries source hwill)
      · intro i publication hnone
        cases hnone
      · intro i publication hnone
        cases hnone
    · exact h.sessions y entry hentry

/-- The sessions that are left when one is removed. -/
theorem Stems.removed (h : Stems sources m) (x : Bytes) : Stems sources (m.remove x) where
  stored := h.stored
  sessions y entry hentry := by
    rw [sessions_remove, Table.lookup_erase] at hentry
    split at hentry
    · cases hentry
    · exact h.sessions y entry hentry

/-- Other retained messages. -/
theorem Stems.withRetained (h : Stems sources m) {t : RetainedMessages}
    (hstored : ∀ p ∈ t.messages, ∃ source, sources source ∧ Shared source p) :
    Stems sources { m with retainedMessages := t } where
  stored := hstored
  sessions := h.sessions

/-- What is handed to a session stems from what has come in. -/
theorem Handed.shared {p : Publish} {qos : QoS} (h : start.Handed event x p qos)
    (hstart : Stems sources start) (hbrings : ∀ p, event.Brings p → sources p) :
    ∃ source, sources source ∧ Shared source p := by
  cases h with
  | published sender source _ _ _ hshared =>
      exact ⟨source, hbrings source (.published sender source), hshared⟩
  | lastWill sender reason entry source _ _ _ hentry hwill hshared =>
      exact ⟨source, (hstart.sessions sender entry hentry).lastWill source hwill, hshared⟩
  | retained _ subscribe _ _ hmessage =>
      exact hstart.stored p (RetainedMessages.mem_messagesFor_iff.mp hmessage).1

/-- What is sent to a client stems from some packets. -/
def SendsFrom (sources : Publish → Prop) (effects : List Effect) : Prop :=
  ∀ x, ∀ p ∈ publishesTo x effects, StemsFrom sources p

theorem sendsFrom_callsOf {entry : SessionEntry} {calls : List SenderCall}
    (h : ∀ p, .publish p ∈ sentPackets calls → StemsFrom sources p) :
    SendsFrom sources (callsOf x entry calls) := by
  intro y p hp
  exact h p (mem_publishesTo_callsOf_iff.mp hp).2

/-- Every act keeps and sends what stems from what has come in. -/
theorem Stems.act (h : Stems sources m) (hstart : Stems sources start)
    (hbrings : ∀ p, event.Brings p → sources p)
    (hact : Act connections start event m effects m') :
    Stems sources m' ∧ SendsFrom sources effects := by
  have hnothing : SendsFrom sources [] := fun _ _ hp => absurd hp List.not_mem_nil
  cases hact with
  | created connect k y he hy hfree =>
      subst he
      exact ⟨h.created hbrings, hnothing⟩
  | removed y hends => exact ⟨h.removed y, hnothing⟩
  | subscribed | unsubscribed | subscriptionsReordered =>
      exact ⟨⟨h.stored, h.sessions⟩, hnothing⟩
  | messagesReordered order hperm =>
      exact ⟨h.withRetained fun p hp => h.stored p (hperm.mem_iff.mp hp), hnothing⟩
  | acknowledged y entry packet hy hentry hpacket =>
      refine ⟨h, sendsFrom_callsOf fun p hp => ?_⟩
      simp only [sentPackets_send, sentPackets_nil, List.mem_singleton] at hp
      exact absurd hp.symm (hpacket p)
  | advanced y entry calls session hy hentry hadvances hquiet hstops =>
      rcases (h.sessions y entry hentry).advances hadvances with ⟨hsession, hcalls⟩
      exact ⟨h.update hsession, sendsFrom_callsOf hcalls⟩
  | announced p => exact ⟨h, fun _ _ hp => absurd hp List.not_mem_nil⟩
  | handed y entry p q calls p' session hentry hp hpublish =>
      rcases hp.shared hstart hbrings with ⟨source, hsource, hshared⟩
      rcases (h.sessions y entry hentry).publish hsource hshared hpublish with
        ⟨hsession, hcalls⟩
      exact ⟨h.update hsession, sendsFrom_callsOf hcalls⟩
  | lowered p p' hp hshared hretain =>
      refine ⟨h.withRetained ?_, hnothing⟩
      intro kept hkept
      rcases List.mem_map.mp hkept with ⟨before, hbefore, rfl⟩
      split
      · rcases hstart.stored p hp with ⟨source, hsource, hbase⟩
        exact ⟨source, hsource, hbase.trans hshared⟩
      · exact h.stored before hbefore
  | kept sender source p t he hshared hretain =>
      subst he
      refine ⟨h.withRetained ?_, hnothing⟩
      intro kept hkept
      rcases (RetainedMessages.mem_retain_iff hretain).mp hkept with ⟨rfl, -⟩ | ⟨hbefore, -⟩
      · exact ⟨source, hbrings source (.published sender source), hshared⟩
      · exact h.stored kept hbefore

/-- Every event keeps and sends what stems from what has come in. -/
theorem stems_of_perform (h : Stems sources m) (hbrings : ∀ p, event.Brings p → sources p)
    (hperform : m.perform connections event = some (.ok (effects, m'))) :
    Stems sources m' ∧ SendsFrom sources effects := by
  refine (trace_of_perform hperform).invariant
    (fun done t => Stems sources t ∧ SendsFrom sources done) [] ?_ ⟨h, ?_⟩
  · rintro done t more t' ⟨ht, hdone⟩ hact
    rcases ht.act h hbrings hact with ⟨ht', hmore⟩
    refine ⟨ht', ?_⟩
    intro x p hp
    rw [publishesTo_append] at hp
    rcases List.mem_append.mp hp with hp | hp
    · exact hdone x p hp
    · exact hmore x p hp
  · exact fun _ _ hp => absurd hp List.not_mem_nil

/-! ## Runs -/

/-- The packets that have come in in a run. -/
def Entered (steps : List ManagerStep) (source : Publish) : Prop :=
  ∃ step ∈ steps, step.event.2.Brings source

/-- More packets may have come in. -/
theorem Stems.mono {sources' : Publish → Prop} (h : Stems sources m)
    (hsub : ∀ p, sources p → sources' p) : Stems sources' m where
  stored p hp := by
    rcases h.stored p hp with ⟨source, hsource, hshared⟩
    exact ⟨source, hsub source hsource, hshared⟩
  sessions x entry hentry := (h.sessions x entry hentry).mono hsub

/-- What has come in before, and what comes in with one more step. -/
theorem entered_append {pre more : List ManagerStep} {source : Publish}
    (h : Entered pre source) : Entered (pre ++ more) source := by
  rcases h with ⟨step, hmem, hbrings⟩
  exact ⟨step, List.mem_append_left _ hmem, hbrings⟩

/-- What a step keeps and sends stems from what has come in so far. -/
theorem stems_of_step {pre : List ManagerStep} {e : Connections × Event}
    {o : Except Fault (List Effect)} {t : Option SessionManager}
    (h : Stems (Entered pre) m) (hstep : machine.step (some m) e = some (o, t)) :
    (∀ m', t = some m' → Stems (Entered (pre ++ [⟨some m, e, o, t⟩])) m') ∧
      ∀ x, ∀ p ∈ delivered x ⟨some m, e, o, t⟩,
        StemsFrom (Entered (pre ++ [⟨some m, e, o, t⟩])) p := by
  rcases Machine.ofFallible_step_some hstep with
    ⟨failure, -, rfl, rfl⟩ | ⟨effects, m', hperform, rfl, rfl⟩
  · refine ⟨fun m' hm' => (by cases hm'), ?_⟩
    intro x p hp
    cases hp
  · have hbrings : ∀ p, e.2.Brings p →
        Entered (pre ++ [⟨some m, e, .ok effects, some m'⟩]) p :=
      fun p hp => ⟨_, List.mem_append_right _ (List.mem_singleton_self _), hp⟩
    rcases stems_of_perform (h.mono fun _ => entered_append) hbrings hperform with
      ⟨hafter, hsent⟩
    refine ⟨?_, hsent⟩
    intro m'' hm''
    cases hm''
    exact hafter

/-- What a session manager keeps stems from what has come in. -/
theorem stems_of_run {maxRetries : Nat} {steps : List ManagerStep} {t : Option SessionManager}
    (h : machine.Run (some (create maxRetries)) steps t) (ht : t = some m) :
    Stems (Entered steps) m := by
  subst ht
  refine h.alive_invariant (fun _ => rfl) (fun _ => True) (fun steps m => Stems (Entered steps) m)
    ?_ ?_ (fun _ _ => trivial)
  · refine ⟨fun p hp => absurd hp List.not_mem_nil, ?_⟩
    intro x entry hnone
    cases hnone
  · intro pre m e o m' _ hm hstep _
    exact (stems_of_step hm hstep).1 m' rfl

/-- Every packet that is sent stems from one that has come in before, or with the same step. -/
theorem transmitted_of_run {maxRetries : Nat} {steps : List ManagerStep}
    {t : Option SessionManager} (h : machine.Run (some (create maxRetries)) steps t)
    {pre post : List ManagerStep} {step : ManagerStep} (hsteps : steps = pre ++ step :: post)
    {p : Publish} (hp : p ∈ delivered x step) : StemsFrom (Entered (pre ++ [step])) p := by
  rcases h.split hsteps with ⟨hpre, hstep, -⟩
  rcases step with ⟨before, e, o, after⟩
  cases before with
  | none => cases hstep
  | some m => exact (stems_of_step (stems_of_run hpre rfl) hstep).2 x p hp

/-- If all packets that come in have been decoded and are sendable, all packets that are sent
are encoded, and the decoder of the server accepts them. -/
theorem accepted_of_run {maxRetries : Nat} {steps : List ManagerStep}
    {t : Option SessionManager} (h : machine.Run (some (create maxRetries)) steps t)
    (hsources : ∀ source, Entered steps source →
      Source source ∧ ∀ qos, qos ≠ .reserved → Sendable source qos)
    {step : ManagerStep} (hstep : step ∈ steps) {p : Publish} (hp : p ∈ delivered x step) :
    ∃ source bytes, Entered steps source ∧ encoding (.publish p) = .ok bytes ∧
      AcceptedAs source.topic source.applicationMessage bytes := by
  rcases List.append_of_mem hstep with ⟨pre, post, hsteps⟩
  rcases transmitted_of_run h hsteps hp with ⟨source, qos, hentered, hqos, htransmitted⟩
  have hsource : Entered steps source := by
    rw [hsteps, List.append_cons]
    exact entered_append hentered
  rcases hsources source hsource with ⟨hdecoded, hsendable⟩
  rcases (emitted_of_sendable hdecoded hqos (hsendable qos hqos)).accepted p htransmitted with
    ⟨bytes, hbytes, haccepted⟩
  exact ⟨source, bytes, hsource, hbytes, haccepted⟩

end SessionManager

end Dispatch
end WallyIo
