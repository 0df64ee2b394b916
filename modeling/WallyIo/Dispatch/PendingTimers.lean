import WallyIo.Dispatch.TxLifetimes

/-!
# Pending timers of outgoing publications

A response of the client cancels the timer of its publication first, and most branches start
it again.  One branch does not: a client that skips the PUBREC is disconnected, while its
publication stays in the table and waits for nothing.  The same happens to a publication whose
packet becomes too long: the encoder refuses the packet before the timer is started.

Main results:

- Theorem {lit}`attended_of_run`: as long as no client skips a PUBREC and no packet becomes too
  long every publication has a pending timer, and is given up in time.
- Theorem {lit}`not_attended_of_skipped`: after a PUBACK instead of the PUBREC it has none.
-/

namespace WallyIo
namespace Dispatch

open Protocol Library

namespace TxTable

/-- Every publication is stored under its own identifier, waits for a response, and has a timer
that is armed or whose handler is queued. -/
def Attended (s : WatchedTable) : Prop :=
  ∀ i entry, s.state.publications.lookup i = some entry →
    entry.publish.packetIdentifier = i ∧ entry.waiting = true ∧
      (entry.retryOnTimeout.armed = true ∨ ∃ r ∈ s.queue, s.Stores r ∧ r.key = i)

/-- No publication stays in the table forever. -/
structure Transient (maxRetries : Nat) (steps : List LifetimeStep) (s : WatchedTable) : Prop where
  /-- None survives more expirations of its timer than there are retries. -/
  bounded : ∀ r, s.Stores r → Watched.handled r steps ≤ maxRetries
  /-- Each is released if nothing but its timer expires. -/
  released : ∀ r, s.Stores r → ∃ rest s', lifetimes.Run (some s) rest (some s') ∧
    (∀ x ∈ rest, x.event = .elapses r.key ∨ x.event = .handler r) ∧ ¬ s'.Stores r

/-- The client answers a PUBLISH by another packet than PUBREC, while no handler of the timer of
the publication is queued. -/
def Skips (x : LifetimeStep) : Prop :=
  ∃ s ack entry, x.before = some s ∧ x.event = .event (.response true ack) ∧
    s.state.publications.lookup ack.packetIdentifier = some entry ∧
    expected entry = .pubrec ∧ ack.type ≠ .pubrec ∧ entry.retryOnTimeout.expired = 0

/-- The steps that leave no publication unattended. -/
structure Regular (x : LifetimeStep) : Prop where
  fits : Fitting x
  answers : ¬ Skips x

section Attention

variable {maxRetries : Nat} {steps : List LifetimeStep} {s s' : WatchedTable} {o : Incident}
  {output : Except Fault (List SenderCall)}

/-- The timers of all publications are pending. -/
def AllPending (s : WatchedTable) : Prop :=
  ∀ i entry, s.state.publications.lookup i = some entry → entry.retryOnTimeout.Pending

/-- Every step that skips no PUBREC keeps them pending. -/
theorem AllPending.step (hs : Accounted maxRetries steps s) (hpending : AllPending s)
    (h : lifetimes.step (some s) o = some (output, some s'))
    (hskips : ¬ Skips ⟨some s, o, output, some s'⟩) : AllPending s' := by
  intro i after hafter
  cases hentry : s.state.publications.lookup i with
  | none =>
      rcases begins_of_step hs h hentry with
        ⟨hnone, -⟩ | ⟨p, qos, outgoing, -, -, -, -, -, hstarted⟩
      · cases hafter.symm.trans hnone
      · cases hafter.symm.trans hstarted
        exact Or.inl (congrArg TimerView.armed (view_startedEntry maxRetries qos outgoing))
  | some entry =>
      obtain ⟨n, hr⟩ := exists_publication hs hentry
      obtain ⟨calls, -, hlives⟩ := lives_of_step hs h hr hentry
      have hbefore := hpending i entry hentry
      obtain ⟨hwaits, hid⟩ := hs.1.wellFormed i entry hentry
      change Lives ⟨i, n⟩ entry o calls (s'.state.publications.lookup i) at hlives
      rw [hafter] at hlives
      generalize hresult : some after = result at hlives
      cases hlives with
      | untouched =>
          cases hresult
          exact hbefore
      | elapsed timer htimer =>
          cases hresult
          rw [TxEntry.retryOnTimeout_withTimer, (Timer.expire_eq_some_iff.mp htimer).2]
          exact Or.inr (Nat.succ_pos _)
      | answered ack reaction hack hackid hreaction =>
          split at hresult
          · cases hresult
          · rename_i hkept
            cases hresult
            have hresponds :=
              TxEntry.responds_responseReceived hwaits (hackid.trans hid.symm) hreaction
            rcases hresponds.armed (Bool.eq_false_iff.mpr hkept) with harmed | ⟨hrec, htype⟩
            · exact Or.inl harmed
            · -- a handler is queued, otherwise the client would have skipped the PUBREC
              refine Or.inr (Nat.pos_of_ne_zero fun hzero => hskips ?_)
              rw [hresponds.expired] at hzero
              have hackid' : ack.packetIdentifier = i := hackid
              exact ⟨s, ack, entry, rfl, rfl, hackid' ▸ hentry, hrec, htype, hzero⟩
      | resent timer htimer hretry =>
          cases hresult
          rw [TxEntry.retryOnTimeout_repeated]
          exact Timer.restart_pending timer
      | failed => cases hresult

/-- A timer whose handler is queued has it in the queue. -/
theorem attended_of_allPending (hs : Accounted maxRetries steps s) (hpending : AllPending s) :
    Attended s := by
  intro i entry hentry
  obtain ⟨hwaits, hid⟩ := hs.1.wellFormed i entry hentry
  refine ⟨hid, hwaits, ?_⟩
  rcases hpending i entry hentry with harmed | hqueued
  · exact Or.inl harmed
  · obtain ⟨n, hr⟩ := exists_publication hs hentry
    have hview : timers.view s.state i = some entry.view :=
      view_eq_some_iff.mpr ⟨entry, hentry, rfl⟩
    have hcount : s.queue.count ⟨i, n⟩ = entry.retryOnTimeout.expired := hs.2.queued hr hview
    rw [← hcount] at hqueued
    exact Or.inr ⟨⟨i, n⟩, List.count_pos_iff.mp hqueued, hr, rfl⟩

theorem allPending_of_run (h : lifetimes.Run (some (initially maxRetries)) steps (some s))
    (hsteps : ∀ x ∈ steps, ¬ Skips x) : AllPending s := by
  refine h.alive_invariant (fun _ => rfl) (fun x => ¬ Skips x) (fun _ t => AllPending t) ?_ ?_
    hsteps
  · intro i entry hentry
    cases hentry
  · intro pre t o output u hpre hpending hstep hskips
    exact hpending.step (accounted_of_run hpre) hstep hskips

/-- As long as no client skips a PUBREC and no packet becomes too long every publication has a
pending timer, none stays forever, and the encoder accepts what they send. -/
theorem attended_of_run (hmax : maxRetries < 65535)
    (h : lifetimes.Run (some (initially maxRetries)) steps (some s))
    (hsteps : ∀ x ∈ steps, Regular x) :
    Attended s ∧ Transient maxRetries steps s ∧ AllEncodable s.state := by
  have hs := accounted_of_run h
  have hpending := allPending_of_run h fun x hx => (hsteps x hx).answers
  refine ⟨attended_of_allPending hs hpending, ⟨?_, ?_⟩,
    allEncodable_of_run h fun x hx => (hsteps x hx).fits⟩
  · intro r hr
    exact hs.2.bounded (by omega) hr
  · intro r hr
    obtain ⟨entry, hentry⟩ := exists_entry hs hr
    have hview : timers.view s.state r.key = some entry.view :=
      view_eq_some_iff.mpr ⟨entry, hentry, rfl⟩
    exact Watched.exists_run_released (timers_lawful maxRetries) (by omega) hs hr hview
      (hpending r.key entry hentry)

end Attention

/-! ### A publication that nobody attends to -/

/-- A first publication has been started. -/
theorem regular_start {qos : QoS} (maxRetries : Nat) (output : Except Fault (List SenderCall))
    (s' : Option WatchedTable) :
    Regular
      ⟨some (initially maxRetries), .event (.publish true samplePublish qos), output, s'⟩ := by
  constructor
  · intro e he
    cases he
    exact fun _ _ => fits_samplePublish qos
  · rintro ⟨s, ack, entry, -, hevent, -⟩
    cases hevent

theorem attended_sample : ∃ steps s, lifetimes.Run (some (initially 3)) steps (some s) ∧
    (∃ entry, s.state.publications.lookup 1 = some entry) ∧
      Attended s ∧ Transient 3 steps s ∧ AllEncodable s.state := by
  obtain ⟨outgoing, s, -, hrun, -, hentry, -⟩ :=
    exists_run_started 3 samplePublish .exactlyOnce (by decide) (by decide)
  refine ⟨_, s, hrun, ⟨_, hentry⟩, attended_of_run (by decide) hrun ?_⟩
  intro x hx
  rw [List.mem_singleton.mp hx]
  exact regular_start 3 _ _

/-- The client sends a PUBACK instead of the PUBREC.  Its publication waits for a PUBREC from now
on, but no handler will ever run. -/
theorem not_attended_of_skipped : ∃ steps s,
    lifetimes.Run (some (initially 3)) steps (some s) ∧
      steps.map Step.event =
        [.event (.publish true samplePublish .exactlyOnce), .event (.response true (.puback 1))] ∧
      ¬ Attended s := by
  obtain ⟨outgoing, s, hset, hrun, hr, hentry, hqueue⟩ :=
    exists_run_started 3 samplePublish .exactlyOnce (by decide) (by decide)
  let q : Qos2TxPublication := { TxPublication.create 3 outgoing with
    state := .waitingForRec, retryOnTimeout := Timer.idle.restart }
  have hq : s.state.publications.lookup 1 = some (.qos2 q) := hentry
  have hresponse : s.state.responseReceived true (.puback 1) =
      .ok ([.stop Qos2TxPublication.pubrecExpected], s.state.update 1 (.qos2 q.answered)) := by
    rw [TxInFlightPublications.responseReceived_qos2 rfl hq,
      Qos2TxPublication.responseReceived_of_waitingForRec rfl, if_pos (by decide)]
    rfl
  have hstep : step s.state (.response true (.puback 1)) =
      some (.ok ([.stop Qos2TxPublication.pubrecExpected],
        s.state.update 1 (.qos2 q.answered))) := by
    rw [step, if_pos (by decide), hresponse]
  refine ⟨_, _, hrun.append (Machine.Run.single (Watched.step_event rfl hstep)), rfl, ?_⟩
  intro hattended
  have hafter : (s.state.update 1 (.qos2 q.answered)).publications.lookup 1 =
      some (.qos2 q.answered) := by simp
  rcases (hattended 1 _ hafter).2.2 with harmed | ⟨r, hmem, -⟩
  · have hcancelled : (TxEntry.qos2 q.answered).retryOnTimeout.armed = false :=
      Timer.cancel_armed q.retryOnTimeout
    rw [hcancelled] at harmed
    cases harmed
  · have hempty : r ∈ s.queue := hmem
    rw [hqueue] at hempty
    cases hempty

end TxTable

end Dispatch
end WallyIo
