import WallyIo.Dispatch.FreshSessions

/-!
# The RETAIN flag of what is sent

A packet is sent because another client has published it, or because its receiver has
subscribed.  The former clears its RETAIN flag, the latter leaves it set, and so do all
retransmissions.

Main results:

- Theorem {lit}`flagged_of_perform`: what an event preserves, and which flags it sends.
- Theorem {lit}`retainFlags_of_run`: every packet that is sent has the flag that belongs to
  the event that it stems from, and retained messages have theirs set.
-/

namespace WallyIo
namespace Dispatch

open Protocol Library

namespace SessionManager

/-! ## The property -/

/-- Whether an event is a SUBSCRIBE. -/
def Event.isSubscribe : Event → Bool
  | .clientSubscribed _ _ => true
  | _ => false

/-- Whether a publication to a client is started under a packet identifier. -/
def startedIn (x : Bytes) (i : UInt16) (effects : List Effect) : Bool :=
  (publishesTo x effects).any fun p => p.packetIdentifier == i && p.qos != .atMostOnce

/-- Whether a step starts a publication to a client under a packet identifier. -/
def Starts (x : Bytes) (i : UInt16) (step : ManagerStep) : Bool :=
  match step.output with
  | .ok effects => step.event.2.hands && startedIn x i effects
  | .error _ => false

/-- The event that the publication to a client under a packet identifier stems from: the last
one that has started such a publication. -/
def origin (x : Bytes) (i : UInt16) (steps : List ManagerStep) : Option Event :=
  ((steps.filter (Starts x i)).getLast?).map (·.event.2)

/-- Every packet that is sent in a run has the RETAIN flag that belongs to the event that it
stems from: the event itself if it hands packets over, else the one that has started the
publication. -/
def RetainFlags (steps : List ManagerStep) : Prop :=
  ∀ pre step post, steps = pre ++ step :: post → ∀ x, ∀ p ∈ delivered x step,
    (step.event.2.hands = true → p.retain = step.event.2.isSubscribe) ∧
    (step.event.2.hands = false → ∃ event, origin x p.packetIdentifier pre = some event ∧
      p.retain = event.isSubscribe)

/-! ## The invariant -/

/-- Retained messages have their flag set, and publications in flight have the flag of what
they stem from. -/
structure Flagged (cause : Bytes → UInt16 → Option Bool) (m : SessionManager) : Prop where
  stored : ∀ p ∈ m.retainedMessages.messages, p.retain = true
  wellFormed : ∀ x entry, m.sessions.lookup x = some entry →
    TxTable.WellFormed entry.session.txInFlightPublications
  caused : ∀ x entry i publication, m.sessions.lookup x = some entry →
    entry.session.txInFlightPublications.publications.lookup i = some publication →
      cause x i = some publication.publish.retain

/-- The flags of the publications in flight while an event is processed. -/
def causeWith (cause : Bytes → UInt16 → Option Bool) (event : Event) (done : List Effect)
    (x : Bytes) (i : UInt16) : Option Bool :=
  if event.hands && startedIn x i done then some event.isSubscribe else cause x i

/-- The flags of the packets that an event has sent so far. -/
def SentFlags (cause : Bytes → UInt16 → Option Bool) (event : Event) (done : List Effect) :
    Prop :=
  ∀ x, ∀ p ∈ publishesTo x done,
    (event.hands = true → p.retain = event.isSubscribe) ∧
    (event.hands = false → cause x p.packetIdentifier = some p.retain)

variable {cause : Bytes → UInt16 → Option Bool} {connections : Connections}
  {start m m' : SessionManager} {event : Event} {effects done : List Effect}

@[simp]
theorem startedIn_append (x : Bytes) (i : UInt16) (effects more : List Effect) :
    startedIn x i (effects ++ more) = (startedIn x i effects || startedIn x i more) := by
  simp [startedIn]

/-- Effects that start nothing do not change the flags. -/
theorem causeWith_append_of_quiet {x : Bytes} {i : UInt16}
    (h : event.hands = true → startedIn x i effects = false) :
    causeWith cause event (done ++ effects) x i = causeWith cause event done x i := by
  rw [causeWith, causeWith, startedIn_append]
  cases hhands : event.hands with
  | false => rfl
  | true => rw [h hhands, Bool.or_false]

/-- Nothing is started without a PUBLISH. -/
theorem startedIn_of_empty {x : Bytes} (i : UInt16) (h : publishesTo x effects = []) :
    startedIn x i effects = false := by
  rw [startedIn, h, List.any_nil]

/-- An event that hands packets over hands those with its own flag. -/
theorem Handed.retain_eq {x : Bytes} {p : Publish} {q : QoS} (h : start.Handed event x p q) :
    event.hands = true ∧ p.retain = event.isSubscribe := by
  cases h with
  | published sender source p x q hshared hretain hsubscriber => exact ⟨rfl, hretain⟩
  | lastWill sender reason entry source p x q hentry hwill hshared hretain hsubscriber =>
      exact ⟨rfl, hretain⟩
  | retained x subscribe p q hmessage hretain => exact ⟨rfl, hretain⟩

/-- Without effects the invariant depends on the sessions and the retained messages only. -/
theorem Flagged.congr (h : Flagged cause m) (hsessions : m'.sessions = m.sessions)
    (hstored : ∀ p ∈ m'.retainedMessages.messages, p.retain = true) : Flagged cause m' := by
  refine ⟨hstored, ?_, ?_⟩
  · rw [hsessions]
    exact h.wellFormed
  · rw [hsessions]
    exact h.caused

/-- A session may be replaced by one whose publications in flight have the right flags. -/
theorem Flagged.update {cause' : Bytes → UInt16 → Option Bool} {y : Bytes}
    {entry : SessionEntry} {session : MqttClientSession} (h : Flagged cause m)
    (hentry : m.sessions.lookup y = some entry)
    (hothers : ∀ x, x ≠ y → ∀ i, cause' x i = cause x i)
    (hwell : TxTable.WellFormed session.txInFlightPublications)
    (hcaused : ∀ i publication,
      session.txInFlightPublications.publications.lookup i = some publication →
        cause' y i = some publication.publish.retain) :
    Flagged cause' (m.update y session) := by
  refine ⟨?_, ?_, ?_⟩
  · rw [retainedMessages_update]
    exact h.stored
  · intro x entry' hentry'
    by_cases hxy : x = y
    · subst hxy
      rw [lookup_update_self hentry] at hentry'
      cases hentry'
      exact hwell
    · rw [lookup_update_of_ne _ hxy] at hentry'
      exact h.wellFormed x entry' hentry'
  · intro x entry' i publication hentry' hpublication
    by_cases hxy : x = y
    · subst hxy
      rw [lookup_update_self hentry] at hentry'
      cases hentry'
      exact hcaused i publication hpublication
    · rw [lookup_update_of_ne _ hxy] at hentry'
      rw [hothers x hxy]
      exact h.caused x entry' i publication hentry' hpublication

/-- What is sent to one client does not start a publication to another one. -/
theorem startedIn_callsOf_of_ne {x y : Bytes} (hxy : x ≠ y) (i : UInt16)
    (entry : SessionEntry) (calls : List SenderCall) :
    startedIn x i (callsOf y entry calls) = false := by
  apply startedIn_of_empty
  exact publishesTo_callsOf_of_ne hxy entry calls

/-- What is sent to a client starts the publications that it tells. -/
theorem startedIn_callsOf_iff {x : Bytes} {i : UInt16} {entry : SessionEntry}
    {calls : List SenderCall} :
    startedIn x i (callsOf x entry calls) = true ↔
      ∃ p, .publish p ∈ sentPackets calls ∧ p.packetIdentifier = i ∧ p.qos ≠ .atMostOnce := by
  rw [startedIn, List.any_eq_true]
  constructor
  · rintro ⟨p, hp, hstarts⟩
    have hsent := (mem_publishesTo_callsOf_iff.mp hp).2
    simp only [Bool.and_eq_true, beq_iff_eq, bne_iff_ne] at hstarts
    exact ⟨p, hsent, hstarts⟩
  · rintro ⟨p, hsent, hid, hqos⟩
    refine ⟨p, mem_publishesTo_callsOf_iff.mpr ⟨rfl, hsent⟩, ?_⟩
    simp [hid, hqos]

/-! ## Every act preserves it -/

/-- A session that answers its client keeps the flags of its publications. -/
theorem Flagged.advanced {y : Bytes} {entry : SessionEntry} {calls : List SenderCall}
    {session : MqttClientSession} (h : Flagged (causeWith cause event done) m)
    (hentry : m.sessions.lookup y = some entry) (hadvances : entry.session.Advances calls session)
    (hquiet : event.hands = true → ∀ p, .publish p ∉ sentPackets calls) :
    Flagged (causeWith cause event (done ++ callsOf y entry calls)) (m.update y session) ∧
      (event.hands = false → ∀ p, .publish p ∈ sentPackets calls →
        causeWith cause event done y p.packetIdentifier = some p.retain) := by
  have hsame : ∀ x i, causeWith cause event (done ++ callsOf y entry calls) x i =
      causeWith cause event done x i := by
    intro x i
    apply causeWith_append_of_quiet
    intro hhands
    by_cases hxy : x = y
    · subst hxy
      rw [Bool.eq_false_iff]
      intro hstarted
      rcases startedIn_callsOf_iff.mp hstarted with ⟨p, hp, -⟩
      exact hquiet hhands p hp
    · exact startedIn_callsOf_of_ne hxy i entry calls
  have hwell := h.wellFormed y entry hentry
  have hcaused := h.caused y entry
  cases hadvances with
  | rx hcalls t =>
      refine ⟨h.update hentry (fun x _ => hsame x) hwell ?_, ?_⟩
      · intro i publication hpublication
        rw [hsame]
        exact hcaused i publication hentry hpublication
      · intro _ p hp
        exact absurd hp (hcalls p)
  | tx e he hstep =>
      refine ⟨h.update hentry (fun x _ => hsame x)
        (hwell.change (TxTable.step_change hwell hstep)) ?_, ?_⟩
      · intro i publication hpublication
        rw [hsame]
        rcases TxTable.entry_of_step hwell he hstep hpublication with ⟨before, hbefore, hkeeps⟩
        rw [hcaused i before hentry hbefore, hkeeps.retain]
      · intro _ p hp
        rcases TxTable.resent_of_step hwell he hstep hp with
          ⟨before, after, hbefore, hkeeps, hafter⟩
        rw [hcaused _ before hentry hbefore, hafter, hkeeps.retain]

/-- A session that is handed a packet starts a publication with the flag of the event. -/
theorem Flagged.handed {y : Bytes} {entry : SessionEntry} {p p' : Publish} {q : QoS}
    {calls : List SenderCall} {session : MqttClientSession} {isConnected : Bool}
    (h : Flagged (causeWith cause event done) m) (hentry : m.sessions.lookup y = some entry)
    (hp : start.Handed event y p q)
    (hpublish : entry.session.publish isConnected p q = .ok (calls, p', session)) :
    Flagged (causeWith cause event (done ++ callsOf y entry calls)) (m.update y session) ∧
      ∀ out, .publish out ∈ sentPackets calls → out.retain = event.isSubscribe := by
  rcases hp.retain_eq with ⟨hhands, hretain⟩
  rcases MqttClientSession.publish_eq_ok_iff.mp hpublish with ⟨t, ht, rfl⟩
  have hwell := h.wellFormed y entry hentry
  have hsent : ∀ out, .publish out ∈ sentPackets calls → out.retain = event.isSubscribe :=
    fun out hout => (TxTable.retain_of_publish ht hout).trans hretain
  refine ⟨h.update hentry ?_ (hwell.change (TxTable.change_of_publish ht)) ?_, hsent⟩
  · intro x hxy i
    exact causeWith_append_of_quiet (fun _ => startedIn_callsOf_of_ne hxy i entry calls)
  · intro i publication hpublication
    rcases TxTable.entry_of_publish ht hpublication with
      ⟨hbefore, hothers⟩ | ⟨hout, hid, hqos⟩
    · rw [causeWith_append_of_quiet, h.caused y entry i publication hentry hbefore]
      intro _
      rw [Bool.eq_false_iff]
      intro hstarted
      rcases startedIn_callsOf_iff.mp hstarted with ⟨out, hout, hid, hqos⟩
      exact hqos (hothers out hout hid)
    · have hstarted : startedIn y i (callsOf y entry calls) = true :=
        startedIn_callsOf_iff.mpr ⟨_, hout, hid, hqos⟩
      rw [causeWith, startedIn_append, hstarted, Bool.or_true, hhands, Bool.and_self, if_pos rfl,
        hsent _ hout]

/-- The flags of what has been sent, and of what is sent next. -/
theorem SentFlags.append (h : SentFlags cause event done) (h' : SentFlags cause event effects) :
    SentFlags cause event (done ++ effects) := by
  intro x p hp
  rw [publishesTo_append] at hp
  rcases List.mem_append.mp hp with hp | hp
  · exact h x p hp
  · exact h' x p hp

/-- The flags of what is sent to one client. -/
theorem sentFlags_callsOf {y : Bytes} {entry : SessionEntry} {calls : List SenderCall}
    (h : ∀ p, .publish p ∈ sentPackets calls →
      (event.hands = true → p.retain = event.isSubscribe) ∧
      (event.hands = false → cause y p.packetIdentifier = some p.retain)) :
    SentFlags cause event (callsOf y entry calls) := by
  intro x p hp
  rcases mem_publishesTo_callsOf_iff.mp hp with ⟨rfl, hmem⟩
  exact h p hmem

/-- Acts that send no PUBLISH change neither the flags nor the packets. -/
theorem Flagged.quiet (h : Flagged (causeWith cause event done) m)
    (hsent : SentFlags cause event done) (hquiet : ∀ x, publishesTo x effects = []) :
    Flagged (causeWith cause event (done ++ effects)) m ∧
      SentFlags cause event (done ++ effects) := by
  refine ⟨⟨h.stored, h.wellFormed, ?_⟩, hsent.append ?_⟩
  · intro x entry i publication hentry hpublication
    rw [causeWith_append_of_quiet fun _ => startedIn_of_empty i (hquiet x)]
    exact h.caused x entry i publication hentry hpublication
  · intro x p hp
    rw [hquiet x] at hp
    cases hp

/-- A new session has no publications in flight. -/
theorem Flagged.created (h : Flagged cause m) (y : Bytes) (connect : Connect) (k : ConnectionId) :
    Flagged cause { m with
      sessions := m.sessions.insert y
        ⟨k, MqttClientSession.clientConnected m.maxRetries connect⟩ } := by
  refine ⟨h.stored, ?_, ?_⟩
  · intro x entry hentry
    rw [Table.lookup_insert] at hentry
    split at hentry
    · cases hentry
      intro i publication hnone
      cases hnone
    · exact h.wellFormed x entry hentry
  · intro x entry i publication hentry hpublication
    rw [Table.lookup_insert] at hentry
    split at hentry
    · cases hentry
      cases hpublication
    · exact h.caused x entry i publication hentry hpublication

/-- The sessions that are left when one is removed. -/
theorem Flagged.removed (h : Flagged cause m) (y : Bytes) : Flagged cause (m.remove y) := by
  have hkept : ∀ {x entry}, (m.remove y).sessions.lookup x = some entry →
      m.sessions.lookup x = some entry := by
    intro x entry hentry
    rw [sessions_remove, Table.lookup_erase] at hentry
    split at hentry
    · cases hentry
    · exact hentry
  exact ⟨h.stored, fun x entry hentry => h.wellFormed x entry (hkept hentry),
    fun x entry i publication hentry => h.caused x entry i publication (hkept hentry)⟩

/-- Every act keeps the invariant, and sends packets with the right flags only. -/
theorem Flagged.act (h : Flagged (causeWith cause event done) m)
    (hsent : SentFlags cause event done) (hact : Act connections start event m effects m') :
    Flagged (causeWith cause event (done ++ effects)) m' ∧
      SentFlags cause event (done ++ effects) := by
  have hnothing : ∀ {m'}, Flagged (causeWith cause event done) m' →
      Flagged (causeWith cause event (done ++ [])) m' ∧ SentFlags cause event (done ++ []) :=
    fun h' => h'.quiet hsent fun _ => rfl
  cases hact with
  | created connect connection y he hy hfree => exact hnothing (h.created y connect connection)
  | removed y hends => exact hnothing (h.removed y)
  | subscribed | unsubscribed | subscriptionsReordered => exact hnothing (h.congr rfl h.stored)
  | messagesReordered order hperm =>
      exact hnothing (h.congr rfl fun p hp => h.stored p (hperm.mem_iff.mp hp))
  | acknowledged y entry packet hy hentry hpacket =>
      apply h.quiet hsent
      intro x
      rw [List.eq_nil_iff_forall_not_mem]
      intro p hp
      have hmem := (mem_publishesTo_callsOf_iff.mp hp).2
      simp only [sentPackets_send, sentPackets_nil, List.mem_singleton] at hmem
      exact hpacket p hmem.symm
  | advanced y entry calls session hy hentry hadvances hquiet hstops =>
      rcases h.advanced hentry hadvances hquiet with ⟨hflagged, hcalls⟩
      refine ⟨hflagged, hsent.append (sentFlags_callsOf fun p hmem => ?_)⟩
      refine ⟨fun hhands => absurd hmem (hquiet hhands p), ?_⟩
      intro hhands
      have hcause := hcalls hhands p hmem
      rw [causeWith, hhands, Bool.false_and] at hcause
      exact hcause
  | announced p => exact h.quiet hsent fun _ => rfl
  | handed y entry p q calls p' session hentry hp hpublish =>
      rcases h.handed hentry hp hpublish with ⟨hflagged, hcalls⟩
      refine ⟨hflagged, hsent.append (sentFlags_callsOf fun out hmem => ?_)⟩
      refine ⟨fun _ => hcalls out hmem, ?_⟩
      intro hhands
      rw [hp.retain_eq.1] at hhands
      cases hhands
  | lowered p p' hp hshared hretain =>
      refine hnothing (h.congr rfl ?_)
      intro kept hkept
      rcases List.mem_map.mp hkept with ⟨before, hbefore, rfl⟩
      split
      · exact hretain
      · exact h.stored before hbefore
  | kept sender source p t he hshared hretain =>
      refine hnothing (h.congr rfl ?_)
      intro kept hkept
      rcases (RetainedMessages.mem_retain_iff hretain).mp hkept with ⟨rfl, -⟩ | ⟨hbefore, -⟩
      · exact (assert_bind_eq_ok_iff.mp hretain).1
      · exact h.stored kept hbefore

/-- Every event keeps the invariant, and sends packets with the right flags only. -/
theorem flagged_of_perform (h : Flagged cause m)
    (hperform : m.perform connections event = some (.ok (effects, m'))) :
    Flagged (causeWith cause event effects) m' ∧ SentFlags cause event effects := by
  refine (trace_of_perform hperform).invariant (fun done t =>
    Flagged (causeWith cause event done) t ∧ SentFlags cause event done) [] ?_ ⟨?_, nofun⟩
  · rintro done t more t' ⟨ht, hsent⟩ hact
    exact ht.act hsent hact
  · have hsame : causeWith cause event [] = cause := by
      funext x i
      rw [causeWith, startedIn_of_empty i rfl, Bool.and_false]
      rfl
    rw [hsame]
    exact h

/-! ## Runs -/

/-- The flags of the publications in flight after a run. -/
def causeOf (steps : List ManagerStep) (x : Bytes) (i : UInt16) : Option Bool :=
  (origin x i steps).map Event.isSubscribe

/-- The last step of a run decides if it starts a publication. -/
theorem origin_append_singleton (x : Bytes) (i : UInt16) (steps : List ManagerStep)
    (step : ManagerStep) :
    origin x i (steps ++ [step]) =
      if Starts x i step = true then some step.event.2 else origin x i steps := by
  rw [origin, origin, List.filter_append, List.filter_singleton]
  cases Starts x i step with
  | true => simp
  | false => simp

/-- The flags follow every step. -/
theorem causeOf_append_singleton (steps : List ManagerStep) (before after : Option SessionManager)
    (connections : Connections) (event : Event) (effects : List Effect) :
    causeOf (steps ++ [⟨before, (connections, event), .ok effects, after⟩]) =
      causeWith (causeOf steps) event effects := by
  funext x i
  have hstarts : Starts x i ⟨before, (connections, event), .ok effects, after⟩ =
      (event.hands && startedIn x i effects) := rfl
  rw [causeOf, origin_append_singleton, causeWith, hstarts]
  cases event.hands && startedIn x i effects with
  | true => rfl
  | false => rfl

/-- Nothing is stored or in flight at first. -/
theorem Flagged.started (maxRetries : Nat) : Flagged (causeOf []) (create maxRetries) where
  stored p hp := absurd hp List.not_mem_nil
  wellFormed x entry hentry := by
    cases (Table.lookup_empty x).symm.trans hentry
  caused x entry i publication hentry := by
    cases (Table.lookup_empty x).symm.trans hentry

/-- The flags are right after every run. -/
theorem flagged_of_run {maxRetries : Nat} {steps : List ManagerStep} {t : Option SessionManager}
    (h : machine.Run (some (create maxRetries)) steps t) :
    ∀ m, t = some m → Flagged (causeOf steps) m := by
  rintro m rfl
  refine h.alive_invariant (fun _ => rfl) (fun _ => True)
    (fun steps m => Flagged (causeOf steps) m) (Flagged.started maxRetries) ?_ (fun _ _ => trivial)
  rintro pre m ⟨connections, event⟩ o m' - hm hstep -
  obtain ⟨effects, hperform, rfl⟩ := Machine.ofFallible_step_alive_iff.mp hstep
  rw [causeOf_append_singleton]
  exact (flagged_of_perform hm hperform).1

/-- Every packet that is sent has the RETAIN flag that belongs to the event that it stems
from, and every retained message has its RETAIN flag set. -/
theorem retainFlags_of_run {maxRetries : Nat} {steps : List ManagerStep}
    {t : Option SessionManager} (h : machine.Run (some (create maxRetries)) steps t) :
    RetainFlags steps ∧
      ∀ m, t = some m → ∀ p ∈ m.retainedMessages.messages, p.retain = true := by
  refine ⟨?_, fun m hm => (flagged_of_run h m hm).stored⟩
  rintro pre ⟨before, ⟨connections, event⟩, output, after⟩ post hsplit x p hp
  rcases h.split hsplit with ⟨hpre, hstep, -⟩
  cases before with
  | none => cases hstep
  | some m =>
      rcases Machine.ofFallible_step_some hstep with
        ⟨_, -, houtput, -⟩ | ⟨effects, u, hok, houtput, -⟩
      · simp only at houtput
        rw [delivered, houtput] at hp
        cases hp
      · simp only at houtput
        rw [delivered, houtput] at hp
        rcases (flagged_of_perform (flagged_of_run hpre m rfl) hok).2 x p hp with ⟨hhands, hresent⟩
        refine ⟨hhands, ?_⟩
        intro hquiet
        have hcause := hresent hquiet
        rw [causeOf, Option.map_eq_some_iff] at hcause
        rcases hcause with ⟨origin, horigin, hretain⟩
        exact ⟨origin, horigin, hretain.symm⟩

/-- A retained message is sent to a subscriber, repeated, and sent to a client that subscribes
later. -/
def retainedRun : Option (List ManagerStep × Option SessionManager) :=
  machine.exec (some (create 3)) (List.map (fun event => (sampleConnections, event))
    [.clientConnected (sampleConnect [0x78]) 0, .clientConnected (sampleConnect [0x79]) 1,
      .clientSubscribed [0x78] ⟨6, 1, [⟨[0x61], .atLeastOnce, wellFormed_letter⟩]⟩,
      .clientPublished [0x79] (.create false .atLeastOnce true [0x61] 7 [0x62]),
      .txTimerElapses [0x78] 1, .txTimeout [0x78] 1,
      .clientSubscribed [0x79] ⟨6, 1, [⟨[0x61], .atMostOnce, wellFormed_letter⟩]⟩])

theorem retainedRun_isSome : retainedRun.isSome = true := rfl

theorem retainFlags_retainedRun : ∃ steps t,
    machine.Run (some (create 3)) steps t ∧ steps.length = 7 ∧ RetainFlags steps ∧
      steps.map (fun step => (delivered [0x78] step ++ delivered [0x79] step).map Publish.retain) =
        [[], [], [], [false], [], [false], [true]] := by
  have hrun := Machine.run_exec (Option.some_get retainedRun_isSome).symm
  exact ⟨_, _, hrun, rfl, (retainFlags_of_run hrun).1, by decide⟩

end SessionManager

end Dispatch
end WallyIo
