import WallyIo.Dispatch.ManagerSteps

/-!
# Fresh sessions

Sessions and subscriptions are kept in two stores.  Every way to end a session leaves the
subscriptions of its client behind.

Main results:

- Theorem {lit}`unserved_of_perform`: a client without subscriptions that has been sent
  nothing is sent nothing until it subscribes.
- Theorem {lit}`subscribesFirst_of_run`: if every session is created at a time when its client
  has no subscriptions, no client is sent a PUBLISH before it subscribes.
-/

namespace WallyIo
namespace Dispatch

open Protocol Library

namespace SessionManager

/-! ## The property -/

/-- Whether a client has a session. -/
def hasSession (x : Bytes) : Option SessionManager → Bool
  | some m => m.sessions.contains x
  | none => false

/-- A step creates a session for a client. -/
def Creates (x : Bytes) (step : ManagerStep) : Prop :=
  hasSession x step.before = false ∧ hasSession x step.after = true

instance (x : Bytes) (step : ManagerStep) : Decidable (Creates x step) :=
  inferInstanceAs (Decidable (_ ∧ _))

/-- The PUBLISH packets that are sent to a client in a step. -/
def delivered (x : Bytes) (step : ManagerStep) : List Publish :=
  match step.output with
  | .ok effects => publishesTo x effects
  | .error _ => []

/-- Whether an event is a SUBSCRIBE of a client. -/
def Event.isSubscribeOf (x : Bytes) : Event → Bool
  | .clientSubscribed clientId _ => clientId == x
  | _ => false

/-- Between the creation of a session and the first PUBLISH that is sent to its client there
is a SUBSCRIBE of this client. -/
def SubscribesFirst (x : Bytes) (steps : List ManagerStep) : Prop :=
  ∀ pre created mid last post, steps = pre ++ created :: (mid ++ last :: post) →
    Creates x created → delivered x last ≠ [] →
      ∃ step ∈ mid ++ [last], step.event.2.isSubscribeOf x = true

/-- A client has no subscriptions. -/
def Unsubscribed (x : Bytes) : Option SessionManager → Prop
  | some m => ∀ s ∈ m.topicSubscriptions.subscriptions, s.clientId ≠ x
  | none => True

instance (x : Bytes) : (s : Option SessionManager) → Decidable (Unsubscribed x s)
  | some m =>
      inferInstanceAs (Decidable (∀ s ∈ m.topicSubscriptions.subscriptions, s.clientId ≠ x))
  | none => isTrue trivial

/-! ## A client that is not served -/

/-- A client has no subscriptions, and nothing that has been sent to it is unanswered. -/
structure Unserved (x : Bytes) (m : SessionManager) : Prop where
  unsubscribed : ∀ s ∈ m.topicSubscriptions.subscriptions, s.clientId ≠ x
  idle : ∀ entry, m.sessions.lookup x = some entry →
    ∀ i, entry.session.txInFlightPublications.publications.lookup i = none

variable {connections : Connections} {start m m' : SessionManager} {event : Event}
  {effects : List Effect} {x : Bytes}

/-- A client without subscriptions is not handed a packet that is published. -/
theorem Unserved.not_handed (h : Unserved x start) (he : event.isSubscribeOf x = false)
    {p : Publish} {q : QoS} : ¬ start.Handed event x p q := by
  have hnone : ∀ source : Publish,
      (x, q) ∉ start.topicSubscriptions.resolveSubscribers source := by
    intro source hmem
    rcases (TopicSubscriptions.mem_resolveSubscribers_iff.mp hmem).1 with ⟨s, hs, hclient, -⟩
    exact h.unsubscribed s hs hclient
  intro hhanded
  cases hhanded with
  | published sender source p x q hshared hretain hsubscriber => exact hnone source hsubscriber
  | lastWill sender reason entry source p x q hentry hwill hshared hretain hsubscriber =>
      exact hnone source hsubscriber
  | retained x subscribe p q hmessage hretain =>
      simp [Event.isSubscribeOf] at he

/-- A session that has nothing to repeat stays so, and sends no PUBLISH. -/
theorem idle_of_advances {s s' : MqttClientSession} {calls : List SenderCall}
    (hidle : ∀ i, s.txInFlightPublications.publications.lookup i = none)
    (h : s.Advances calls s') :
    (∀ i, s'.txInFlightPublications.publications.lookup i = none) ∧
      ∀ p, .publish p ∉ sentPackets calls := by
  cases h with
  | rx hcalls t => exact ⟨hidle, hcalls⟩
  | tx e he hstep =>
      have hwell : TxTable.WellFormed s.txInFlightPublications := by
        intro i entry hentry
        rw [hidle i] at hentry
        cases hentry
      cases TxTable.step_reacts hwell he hstep with
      | none hsame hcalls =>
          rw [hsame]
          exact ⟨hidle, hcalls⟩
      | elapsed i entry timer he hentry hafter hcalls =>
          rw [hidle i] at hentry
          cases hentry
      | reacts i entry reaction hentry hfollows hsettle =>
          rw [hidle i] at hentry
          cases hentry

/-- A client stays unserved when a session changes, unless its own one gets something to
repeat. -/
theorem Unserved.update {y : Bytes} {session : MqttClientSession} (h : Unserved x m)
    (hidle : x = y → ∀ i, session.txInFlightPublications.publications.lookup i = none) :
    Unserved x (m.update y session) := by
  refine ⟨?_, ?_⟩
  · rw [topicSubscriptions_update]
    exact h.unsubscribed
  · intro entry hentry
    rw [lookup_update] at hentry
    split at hentry
    · rename_i hxy
      obtain ⟨entry', -, rfl⟩ := Option.map_eq_some_iff.mp hentry
      exact hidle hxy
    · exact h.idle entry hentry

/-- An act of an event that is not a SUBSCRIBE of the client leaves it unserved. -/
theorem Unserved.act (hstart : Unserved x start) (h : Unserved x m)
    (he : event.isSubscribeOf x = false) (hact : Act connections start event m effects m') :
    Unserved x m' ∧ publishesTo x effects = [] := by
  cases hact with
  | created connect connection y hevent hy hfree =>
      refine ⟨⟨h.unsubscribed, ?_⟩, rfl⟩
      intro entry hentry i
      by_cases hxy : x = y
      · rw [hxy, Table.lookup_insert_self] at hentry
        cases hentry
        rfl
      · rw [Table.lookup_insert_of_ne _ _ hxy] at hentry
        exact h.idle entry hentry i
  | removed y hends =>
      refine ⟨⟨h.unsubscribed, ?_⟩, rfl⟩
      intro entry hentry i
      rw [sessions_remove, Table.lookup_erase] at hentry
      split at hentry
      · cases hentry
      · exact h.idle entry hentry i
  | subscribed y subscribe hevent =>
      refine ⟨⟨?_, h.idle⟩, rfl⟩
      have hyx : y ≠ x := by
        rw [hevent] at he
        simpa [Event.isSubscribeOf] using he
      intro s hs
      rcases TopicSubscriptions.mem_emplaceAll.mp hs with hs | ⟨subscr, -, rfl⟩
      · exact h.unsubscribed s hs
      · exact hyx
  | unsubscribed y unsubscribe hevent =>
      refine ⟨⟨?_, h.idle⟩, rfl⟩
      intro s hs
      exact h.unsubscribed s (List.mem_of_mem_filter hs)
  | subscriptionsReordered order hperm =>
      refine ⟨⟨?_, h.idle⟩, rfl⟩
      intro s hs
      exact h.unsubscribed s (hperm.mem_iff.mp hs)
  | acknowledged y entry packet hy hentry hpacket =>
      refine ⟨h, publishesTo_callsOf_of_quiet ?_⟩
      intro p hsent
      simp only [sentPackets_send, sentPackets_nil, List.mem_singleton] at hsent
      exact hpacket p hsent.symm
  | advanced y entry calls session hy hentry hadvances hquiet hstops =>
      by_cases hxy : x = y
      · subst hxy
        rcases idle_of_advances (h.idle entry hentry) hadvances with ⟨hidle, hcalls⟩
        exact ⟨h.update fun _ => hidle, publishesTo_callsOf_of_quiet hcalls⟩
      · exact ⟨h.update fun heq => absurd heq hxy, publishesTo_callsOf_of_ne hxy entry calls⟩
  | handed y entry p q calls p' session hentry hp hpublish =>
      have hxy : x ≠ y := by
        rintro rfl
        exact hstart.not_handed he hp
      exact ⟨h.update fun heq => absurd heq hxy, publishesTo_callsOf_of_ne hxy entry calls⟩
  | messagesReordered | announced | lowered | kept => exact ⟨⟨h.unsubscribed, h.idle⟩, rfl⟩

/-- A client that is not served is sent nothing until it subscribes. -/
theorem unserved_of_perform (h : Unserved x m) (he : event.isSubscribeOf x = false)
    (hperform : m.perform connections event = some (.ok (effects, m'))) :
    Unserved x m' ∧ publishesTo x effects = [] := by
  refine (trace_of_perform hperform).invariant
    (fun pre t => Unserved x t ∧ publishesTo x pre = []) [] ?_ ⟨h, rfl⟩
  rintro pre t more t' ⟨ht, hpre⟩ hact
  rcases h.act ht he hact with ⟨ht', hmore⟩
  exact ⟨ht', by rw [publishesTo_append, hpre, hmore, List.append_nil]⟩

/-! ## Runs -/

/-- A session that has just been created is not served, if its client has no
subscriptions. -/
theorem unserved_of_creates {step : ManagerStep}
    (hstep : machine.step step.before step.event = some (step.output, step.after))
    (hcreates : Creates x step) (hclean : Unsubscribed x step.before) :
    ∀ m', step.after = some m' → Unserved x m' := by
  rcases step with ⟨before, ⟨connections, event⟩, output, after⟩
  rintro m' hafter
  cases before with
  | none => cases hstep
  | some m =>
      rcases Machine.ofFallible_step_some hstep with ⟨_, -, -, hfail⟩ | ⟨effects, t, hok, -, ht⟩
      · exact absurd (hfail.symm.trans hafter) (by simp)
      · simp only at hok ht hafter
        rw [ht] at hafter
        cases hafter
        have hnone : m.sessions.lookup x = none :=
          (m.sessions.contains_eq_false_iff x).mp hcreates.1
        have hunserved : Unserved x m := by
          refine ⟨hclean, ?_⟩
          intro entry hentry
          rw [hnone] at hentry
          cases hentry
        by_cases he : event.isSubscribeOf x = true
        · -- a SUBSCRIBE creates no session
          have hstored : hasSession x after = true := hcreates.2
          rw [ht] at hstored
          rcases (m'.sessions.contains_eq_true_iff x).mp hstored with ⟨entry, hentry⟩
          have hfate := fate_of_perform (x := x) hok
          rw [profile, hentry, Option.map_some] at hfate
          generalize hp : some (profileOf entry) = p at hfate
          cases hfate with
          | same => simp [profile, hnone] at hp
          | removed => cases hp
          | created connect connection hconnected =>
              rw [hconnected] at he
              cases he
        · exact (unserved_of_perform hunserved (Bool.eq_false_iff.mpr he) hok).1

/-- If every session of a client is created at a time when the client has no subscriptions,
no PUBLISH is sent to it before it subscribes. -/
theorem subscribesFirst_of_run {maxRetries : Nat} {steps : List ManagerStep}
    {t : Option SessionManager} (h : machine.Run (some (create maxRetries)) steps t)
    (hclean : ∀ step ∈ steps, Creates x step → Unsubscribed x step.before) :
    SubscribesFirst x steps := by
  intro pre created mid last post hsplit hcreates hdelivered
  by_contra hnone
  have hquiet : ∀ step ∈ mid ++ [last], step.event.2.isSubscribeOf x = false := by
    intro step hstep
    by_contra hsubscribe
    exact hnone ⟨step, hstep, Bool.not_eq_false _ ▸ hsubscribe⟩
  rcases h.split hsplit with ⟨-, hcreated, hrest⟩
  have hfresh := unserved_of_creates hcreated hcreates
    (hclean created (by rw [hsplit]; simp) hcreates)
  rcases hrest.split rfl with ⟨hmid, hlast, -⟩
  have hbefore : ∀ m, last.before = some m → Unserved x m := by
    refine hmid.invariant (fun step => step.event.2.isSubscribeOf x = false)
      (fun s => ∀ m, s = some m → Unserved x m) hfresh ?_
      (fun step hstep => hquiet step (List.mem_append_left _ hstep))
    rintro s ⟨connections, event⟩ o u hs hstep he m' rfl
    cases s with
    | none => cases hstep
    | some m =>
        obtain ⟨effects, hperform, -⟩ := Machine.ofFallible_step_alive_iff.mp hstep
        exact (unserved_of_perform (hs m rfl) he hperform).1
  rcases last with ⟨before, ⟨connections, event⟩, output, after⟩
  cases before with
  | none => cases hlast
  | some m =>
      rcases Machine.ofFallible_step_some hlast with
        ⟨_, -, hfail, -⟩ | ⟨effects, u, hok, houtput, -⟩
      · apply hdelivered
        simp only at hfail
        rw [delivered, hfail]
      · have hempty := (unserved_of_perform (hbefore m rfl) (hquiet _ (by simp)) hok).2
        apply hdelivered
        simp only at houtput
        rw [delivered, houtput]
        exact hempty

/-! ## Subscriptions that survive their session -/

/-- A CONNECT of a client, without a last will. -/
def sampleConnect (clientId : Bytes) : Connect :=
  ⟨12, [0x4D, 0x51, 0x54, 0x54], 4, 0x02, 0, clientId, none, none, none, none, nofun⟩

/-- The clients {lit}`x` and {lit}`y`, the former with two connections. -/
def sampleConnections : Connections
  | 0 => some (some [0x78])
  | 1 => some (some [0x79])
  | 2 => some (some [0x78])
  | _ => none

theorem wellFormed_letter : topicFilterViolation [0x61] = none := by decide

/-- One client subscribes, the other one publishes. -/
def servedRun : Option (List ManagerStep × Option SessionManager) :=
  machine.exec (some (create 3)) (List.map (fun event => (sampleConnections, event))
    [.clientConnected (sampleConnect [0x78]) 0, .clientConnected (sampleConnect [0x79]) 1,
      .clientSubscribed [0x78] ⟨6, 1, [⟨[0x61], .atMostOnce, wellFormed_letter⟩]⟩,
      .clientPublished [0x79] (.create false .atMostOnce false [0x61] 0 [0x62])])

theorem servedRun_isSome : servedRun.isSome = true := rfl

theorem subscribesFirst_servedRun : ∃ steps t,
    machine.Run (some (create 3)) steps t ∧ steps.length = 4 ∧
      SubscribesFirst [0x78] steps := by
  have hrun := Machine.run_exec (Option.some_get servedRun_isSome).symm
  have hclean : ∀ step ∈ (servedRun.get servedRun_isSome).1, Creates [0x78] step →
      Unsubscribed [0x78] step.before := by
    decide
  exact ⟨_, _, hrun, rfl, subscribesFirst_of_run hrun hclean⟩

/-- A client subscribes, disconnects and connects again. -/
def reconnectedRun : Option (List ManagerStep × Option SessionManager) :=
  machine.exec (some (create 3)) (List.map (fun event => (sampleConnections, event))
    [.clientConnected (sampleConnect [0x78]) 0, .clientConnected (sampleConnect [0x79]) 1,
      .clientSubscribed [0x78] ⟨6, 1, [⟨[0x61], .atMostOnce, wellFormed_letter⟩]⟩,
      .clientDisconnected [0x78] .clientDisconnect,
      .clientConnected (sampleConnect [0x78]) 2,
      .clientPublished [0x79] (.create false .atMostOnce false [0x61] 0 [0x62])])

theorem reconnectedRun_isSome : reconnectedRun.isSome = true := rfl

/-- A client that has connected again is sent what matches the subscription of its former
session. -/
theorem not_subscribesFirst_reconnectedRun : ∃ steps t,
    machine.Run (some (create 3)) steps t ∧ ¬ SubscribesFirst [0x78] steps := by
  refine ⟨(reconnectedRun.get reconnectedRun_isSome).1, _,
    Machine.run_exec (Option.some_get reconnectedRun_isSome).symm, ?_⟩
  intro h
  have hcreates :
      Creates [0x78] ((reconnectedRun.get reconnectedRun_isSome).1.get ⟨4, by decide⟩) := by
    decide
  have hdelivered :
      delivered [0x78] ((reconnectedRun.get reconnectedRun_isSome).1.get ⟨5, by decide⟩) ≠ [] := by
    decide
  rcases h ((reconnectedRun.get reconnectedRun_isSome).1.take 4) _ [] _ [] rfl hcreates
    hdelivered with ⟨step, hstep, hsubscribe⟩
  rw [List.nil_append, List.mem_singleton] at hstep
  rw [hstep] at hsubscribe
  cases hsubscribe

end SessionManager

end Dispatch
end WallyIo
