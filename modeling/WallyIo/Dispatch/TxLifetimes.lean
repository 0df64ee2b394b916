import WallyIo.Dispatch.TxTable
import WallyIo.Library.WeakHandlers

/-!
# The lifetimes of outgoing publications

From the moment when a publication is stored in its table until it is released its timer
runs.  The handlers of the timer refer weakly to the publication, so that a handler which was
queued before the publication has been released does nothing, even if the packet identifier
has been assigned again.

Main results:

- Theorem {lit}`touches_of_step`: what a step does to one publication.
- Theorem {lit}`timers_lawful`: the publications of a table as objects with timers.
- Theorem {lit}`exists_run_table`: a table with late handlers runs as the table alone.
- Theorem {lit}`encoded_of_run`: the encoder accepts what is sent, as long as no packet is too
  long.
- Theorem {lit}`lives_of_step`: what a step does to a publication, late handlers included.
-/

namespace WallyIo
namespace Dispatch

open Protocol Library Codec

/-! ## The timer of an entry -/

namespace TxEntry

/-- How many expirations of its timer a publication has counted. -/
def retryCount : TxEntry → UInt16
  | .qos1 p => p.retryCount
  | .qos2 p => p.retryCount

/-- How often a publication sends its packets again. -/
def maxRetries : TxEntry → Nat
  | .qos1 p => p.maxRetries
  | .qos2 p => p.maxRetries

/-- Whether the next expiration of its timer makes a publication send its packet again. -/
def mayRetry : TxEntry → Bool
  | .qos1 p => p.mayRetry
  | .qos2 p => p.mayRetry

/-- Whether a publication has been given up. -/
def terminallyFailed : TxEntry → Bool
  | .qos1 p => p.state == .terminallyFailed
  | .qos2 p => p.state == .terminallyFailed

/-- What is seen of a publication and its timer. -/
def view (entry : TxEntry) : TimerView :=
  ⟨entry.retryOnTimeout.armed, entry.retryOnTimeout.expired, entry.retryCount.toNat⟩

/-- The packet that a publication sends when its timer has expired. -/
def resent : TxEntry → MqttPacket
  | .qos1 p => .publish p.publish
  | .qos2 p => if p.state = .waitingForRec then .publish (p.publish.setDup true) else p.pubrel

/-- A publication that has sent it. -/
def repeated (timer : Timer) : TxEntry → TxEntry
  | .qos1 p => .qos1 { p with
      state := .waitingForAck, retryCount := p.retryCount + 1, retryOnTimeout := timer.restart }
  | .qos2 p => .qos2 { p with
      state := .waitingForComp, retryCount := p.retryCount + 1, retryOnTimeout := timer.restart,
      publish := if p.state = .waitingForRec then p.publish.setDup true else p.publish }

/-- A publication that has been given up. -/
def givenUp (timer : Timer) : TxEntry → TxEntry
  | .qos1 p => .qos1 { p with
      state := .terminallyFailed, retryCount := p.retryCount + 1, retryOnTimeout := timer }
  | .qos2 p => .qos2 { p with
      state := .terminallyFailed, retryCount := p.retryCount + 1, retryOnTimeout := timer }

variable {entry : TxEntry} {timer : Timer} {reaction : Reaction TxEntry}

@[simp]
theorem retryOnTimeout_withTimer : (entry.withTimer timer).retryOnTimeout = timer := by
  cases entry <;> rfl

@[simp]
theorem retryCount_withTimer : (entry.withTimer timer).retryCount = entry.retryCount := by
  cases entry <;> rfl

@[simp]
theorem maxRetries_withTimer : (entry.withTimer timer).maxRetries = entry.maxRetries := by
  cases entry <;> rfl

theorem mayRetry_eq :
    entry.mayRetry = decide ((entry.retryCount + 1).toNat ≤ entry.maxRetries) := by
  cases entry <;> rfl

@[simp]
theorem retryOnTimeout_repeated : (entry.repeated timer).retryOnTimeout = timer.restart := by
  cases entry <;> rfl

@[simp]
theorem retryCount_repeated : (entry.repeated timer).retryCount = entry.retryCount + 1 := by
  cases entry <;> rfl

@[simp]
theorem maxRetries_repeated : (entry.repeated timer).maxRetries = entry.maxRetries := by
  cases entry <;> rfl

@[simp]
theorem level_repeated : (entry.repeated timer).level = entry.level := by
  cases entry <;> rfl

@[simp]
theorem terminallyFailed_givenUp : (entry.givenUp timer).terminallyFailed = true := by
  cases entry <;> rfl

/-- What a waiting publication does when its timer has expired. -/
theorem ackTimeoutExpired_of_waiting (hwaits : entry.waiting = true) (timer : Timer) :
    (entry.withTimer timer).ackTimeoutExpired =
      if entry.mayRetry = true then .ok ⟨[.send entry.resent], false, entry.repeated timer⟩
      else .ok ⟨[], true, entry.givenUp timer⟩ := by
  cases entry with
  | qos1 p =>
      let q : Qos1TxPublication := { p with retryOnTimeout := timer }
      have hstate : q.state = .waitingForAck := by simpa [waiting] using hwaits
      have hmay : q.mayRetry = p.mayRetry := rfl
      change q.ackTimeoutExpired.map (Reaction.map TxEntry.qos1) = _
      rw [Qos1TxPublication.ackTimeoutExpired, hstate, hmay, mayRetry]
      by_cases hretry : p.mayRetry = true
      · rw [if_pos hretry, if_pos hretry]
        rfl
      · rw [if_neg hretry, if_neg hretry]
        rfl
  | qos2 p =>
      let q : Qos2TxPublication := { p with retryOnTimeout := timer }
      have hmay : q.mayRetry = p.mayRetry := rfl
      change q.ackTimeoutExpired.map (Reaction.map TxEntry.qos2) = _
      rcases waiting_qos2_iff.mp hwaits with hrec | hcomp
      · have hstate : q.state = .waitingForRec := hrec
        rw [Qos2TxPublication.ackTimeoutExpired_of_waitingForRec hstate, hmay, mayRetry]
        by_cases hretry : p.mayRetry = true
        · simp [hretry, hrec, Except.map, Reaction.map, resent, repeated, q,
            Qos2TxPublication.startAckTimeout, Qos2TxPublication.retried,
            Qos2TxPublication.duplicate]
        · simp [hretry, Except.map, Reaction.map, givenUp, q, Qos2TxPublication.retried]
      · have hstate : q.state = .waitingForComp := hcomp
        rw [Qos2TxPublication.ackTimeoutExpired_of_waitingForComp hstate, hmay, mayRetry]
        by_cases hretry : p.mayRetry = true
        · simp [hretry, hcomp, Except.map, Reaction.map, resent, repeated, q,
            Qos2TxPublication.startAckTimeout, Qos2TxPublication.retried,
            Qos2TxPublication.pubrel]
        · simp [hretry, Except.map, Reaction.map, givenUp, q, Qos2TxPublication.retried]

/-- What a response does to a publication. -/
structure Responds (entry : TxEntry) (ack : PublishAck) (reaction : Reaction TxEntry) :
    Prop where
  expired : reaction.after.retryOnTimeout.expired = entry.retryOnTimeout.expired
  retryCount : reaction.after.retryCount = entry.retryCount
  maxRetries : reaction.after.maxRetries = entry.maxRetries
  level : reaction.after.level = entry.level
  publish : reaction.after.publish = entry.publish
  /-- It is not answered by a PUBLISH. -/
  sent : ∀ p, .publish p ∉ sentPackets reaction.calls
  /-- The timer is started again, unless the client should have sent a PUBREC. -/
  armed : reaction.released = false →
    reaction.after.retryOnTimeout.armed = true ∨
      TxTable.expected entry = .pubrec ∧ ack.type ≠ .pubrec

theorem responds_responseReceived {ack : PublishAck} (hwaits : entry.waiting = true)
    (hid : ack.packetIdentifier = entry.publish.packetIdentifier)
    (h : entry.responseReceived ack = .ok reaction) : entry.Responds ack reaction := by
  cases entry with
  | qos1 p =>
      rw [responseReceived_qos1 hwaits hid] at h
      split at h
      · cases h
        exact ⟨Timer.cancel_expired _, rfl, rfl, rfl, rfl, by simp, fun hkept => by cases hkept⟩
      · cases h
  | qos2 p =>
      have hcancel : p.retryOnTimeout.cancel.cancel.expired = p.retryOnTimeout.expired := by simp
      rw [responseReceived] at h
      rcases waiting_qos2_iff.mp hwaits with hrec | hcomp
      · rw [Qos2TxPublication.responseReceived_of_waitingForRec hrec] at h
        split at h
        · rename_i htype
          cases h
          exact ⟨Timer.cancel_expired _, rfl, rfl, rfl, rfl, by simp [Reaction.map],
            fun _ => Or.inr ⟨by simp [TxTable.expected, hrec], htype⟩⟩
        · split at h
          · cases h
            exact ⟨hcancel, rfl, rfl, rfl, rfl, by simp [Reaction.map, Qos2TxPublication.pubrel],
              fun _ => Or.inl rfl⟩
          · cases h
      · rw [Qos2TxPublication.responseReceived_of_waitingForComp hcomp] at h
        split at h
        · cases h
          exact ⟨hcancel, rfl, rfl, rfl, rfl, by simp [Reaction.map, Qos2TxPublication.pubrel],
            fun _ => Or.inl rfl⟩
        · split at h
          · cases h
            exact ⟨Timer.cancel_expired _, rfl, rfl, rfl, rfl, by simp [Reaction.map],
              fun hkept => by cases hkept⟩
          · cases h

end TxEntry

namespace TxTable

/-! ## What a step does to one entry -/

/-- Whether an event concerns the entry under an identifier. -/
def Event.concerns (i : UInt16) : Event → Bool
  | .publish _ _ _ => false
  | .response connected ack => connected && ack.packetIdentifier == i
  | .timerElapses j => j == i
  | .timeout j => j == i

/-- What a step does to the entry under an identifier. -/
inductive Touches (i : UInt16) (entry : TxEntry) :
    Event → List SenderCall → Option TxEntry → Prop
  /-- The event does not concern the publication, whose packet is not sent either. -/
  | untouched (e : Event) (calls : List SenderCall) (he : e.concerns i = false)
      (hsent : ∀ p, .publish p ∈ sentPackets calls → p.packetIdentifier = i → p.qos = .atMostOnce) :
      Touches i entry e calls (some entry)
  | elapsed (timer : Timer) (htimer : entry.retryOnTimeout.expire = some timer) :
      Touches i entry (.timerElapses i) [] (some (entry.withTimer timer))
  | answered (ack : PublishAck) (reaction : Reaction TxEntry) (hack : isResponse ack = true)
      (hid : ack.packetIdentifier = i) (hreaction : entry.responseReceived ack = .ok reaction) :
      Touches i entry (.response true ack) reaction.calls
        (if reaction.released then none else some reaction.after)
  | expired (timer : Timer) (reaction : Reaction TxEntry)
      (htimer : entry.retryOnTimeout.takeExpired = some timer)
      (hreaction : (entry.withTimer timer).ackTimeoutExpired = .ok reaction) :
      Touches i entry (.timeout i) reaction.calls
        (if reaction.released then none else some reaction.after)

section Steps

variable {t t' : TxInFlightPublications} {e : Event} {calls : List SenderCall} {i : UInt16}
  {entry : TxEntry}

/-- Settling a reaction changes the entry that has reacted, and no other one. -/
theorem lookup_settle {j : UInt16} {reaction : Reaction TxEntry}
    (h : t.settle j reaction = .ok (calls, t')) (i : UInt16) :
    t'.publications.lookup i =
      if i = j then (if reaction.released then none else some reaction.after)
      else t.publications.lookup i := by
  obtain ⟨reactionCalls, released, after⟩ := reaction
  cases released with
  | false =>
      rw [TxInFlightPublications.settle_kept] at h
      cases h
      exact Table.lookup_insert _ _ _ _
  | true =>
      rw [TxInFlightPublications.settle_released] at h
      cases h
      exact Table.lookup_erase _ _ _

/-- The reaction of another publication sends no packet of this one. -/
theorem not_sent_of_settle (hwell : WellFormed t) {j : UInt16} {other : TxEntry}
    {reaction : Reaction TxEntry} (hother : t.publications.lookup j = some other)
    (hfollows : other.Follows reaction) (h : t.settle j reaction = .ok (calls, t'))
    (hij : i ≠ j) {p : Publish} (hp : .publish p ∈ sentPackets calls) :
    p.packetIdentifier ≠ i := by
  rw [TxInFlightPublications.calls_of_settle h] at hp
  rw [hfollows.sent p hp, hfollows.keeps.packetIdentifier, (hwell j other hother).2]
  exact Ne.symm hij

/-- What publishing a packet does to an entry: nothing, as its identifier is in use. -/
theorem touches_of_publish {connected : Bool} {p p' : Publish} {qos : QoS}
    (hentry : t.publications.lookup i = some entry)
    (h : t.publish connected p qos = .ok (calls, p', t')) :
    Touches i entry (.publish connected p qos) calls (t'.publications.lookup i) := by
  cases TxInFlightPublications.publishes_of_publish h with
  | nothing _ _ hnothing =>
      rw [hentry]
      exact .untouched _ _ rfl (fun _ hout => absurd hout List.not_mem_nil)
  | itself outgoing hset =>
      rw [hentry]
      refine .untouched _ _ rfl ?_
      intro out hout _
      have hsent : out = p' := by simpa using hout
      rw [hsent]
      exact Publish.qos_of_setQos hset
  | copy _ hqos outgoing hset hfree =>
      have hne : i ≠ t.nextIdentifier := by
        rintro rfl
        rw [hfree] at hentry
        cases hentry
      rw [TxInFlightPublications.publications_update, Table.lookup_insert_of_ne _ _ hne,
        TxInFlightPublications.publications_assign, hentry]
      refine .untouched _ _ rfl ?_
      intro out hout hid
      have hsent : out = outgoing := by simpa using hout
      rw [hsent, (Publish.setQos_frame hset).2.1] at hid
      exact absurd hid.symm hne

/-- What a step does to an entry. -/
theorem touches_of_step (hwell : WellFormed t) (hentry : t.publications.lookup i = some entry)
    (h : step t e = some (.ok (calls, t'))) :
    Touches i entry e calls (t'.publications.lookup i) := by
  cases e with
  | publish connected p qos =>
      obtain ⟨p', hp⟩ := step_publish_eq_some_iff.mp h
      exact touches_of_publish hentry hp
  | response connected ack =>
      simp only [step] at h
      split at h
      · rename_i hack
        rw [Option.some.injEq] at h
        cases connected with
        | false =>
            rw [responseReceived_disconnected hack] at h
            cases h
            rw [hentry]
            exact .untouched _ _ rfl (fun _ hout => absurd hout List.not_mem_nil)
        | true =>
            cases hother : t.publications.lookup ack.packetIdentifier with
            | none =>
                rw [TxInFlightPublications.responseReceived_unknown hack hother] at h
                cases h
                have hne : ack.packetIdentifier ≠ i := by
                  rintro rfl
                  cases hentry.symm.trans hother
                rw [hentry]
                exact .untouched _ _ (by simp [Event.concerns, hne]) (by simp)
            | some other =>
                rw [responseReceived_known hack hother] at h
                obtain ⟨reaction, hreaction, hsettle⟩ := bind_eq_ok_iff.mp h
                obtain ⟨hwaits, hid⟩ := hwell _ _ hother
                have hfollows := TxEntry.follows_responseReceived hwaits hid.symm hreaction
                rw [lookup_settle hsettle]
                by_cases hi : i = ack.packetIdentifier
                · rw [if_pos hi, TxInFlightPublications.calls_of_settle hsettle]
                  rw [hi, hother] at hentry
                  cases hentry
                  exact .answered ack reaction hack hi.symm hreaction
                · rw [if_neg hi, hentry]
                  exact .untouched _ _ (by simp [Event.concerns, Ne.symm hi]) fun p hp hp' =>
                    absurd hp' (not_sent_of_settle hwell hother hfollows hsettle hi hp)
      · cases h
  | timerElapses j =>
      simp only [step, TxInFlightPublications.timerElapses] at h
      cases hother : t.publications.lookup j with
      | none => simp [hother] at h
      | some other =>
          simp only [hother, Option.map_map, Option.map_eq_some_iff] at h
          obtain ⟨timer, htimer, hresult⟩ := h
          cases hresult
          rw [TxInFlightPublications.publications_update, Table.lookup_insert]
          by_cases hi : i = j
          · rw [if_pos hi]
            subst hi
            cases hentry.symm.trans hother
            exact .elapsed timer htimer
          · rw [if_neg hi, hentry]
            exact .untouched _ _ (by simp [Event.concerns, Ne.symm hi])
              (fun _ hout => absurd hout List.not_mem_nil)
  | timeout j =>
      simp only [step, TxInFlightPublications.timeout] at h
      cases hother : t.publications.lookup j with
      | none => simp [hother] at h
      | some other =>
          simp only [hother, Option.map_eq_some_iff] at h
          obtain ⟨timer, htimer, hresult⟩ := h
          obtain ⟨reaction, hreaction, hsettle⟩ := bind_eq_ok_iff.mp hresult
          have hother' : (t.update j (other.withTimer timer)).publications.lookup j =
              some (other.withTimer timer) := by simp
          have hwaits := (TxEntry.waiting_withTimer timer).trans (hwell _ _ hother).1
          have hfollows := TxEntry.follows_ackTimeoutExpired hwaits hreaction
          rw [lookup_settle hsettle]
          by_cases hi : i = j
          · rw [if_pos hi, TxInFlightPublications.calls_of_settle hsettle]
            subst hi
            cases hentry.symm.trans hother
            exact .expired timer reaction htimer hreaction
          · rw [if_neg hi, hentry]
            refine .untouched _ _ (by simp [Event.concerns, Ne.symm hi]) ?_
            intro p hp hid
            rw [TxInFlightPublications.calls_of_settle hsettle] at hp
            rw [hfollows.sent p hp, hfollows.keeps.packetIdentifier, TxEntry.publish_withTimer,
              (hwell j other hother).2] at hid
            exact absurd hid.symm hi

/-- What a step does under an identifier that is not in use. -/
inductive Starts (t : TxInFlightPublications) (i : UInt16) :
    Event → List SenderCall → Option TxEntry → Prop
  | unused (e : Event) (calls : List SenderCall)
      (hsent : ∀ p, .publish p ∈ sentPackets calls → p.packetIdentifier = i → p.qos = .atMostOnce) :
      Starts t i e calls none
  /-- The next publication is started. -/
  | started (p : Publish) (qos : QoS) (hqos : qos = .atLeastOnce ∨ qos = .exactlyOnce)
      (outgoing : Publish) (hnext : i = t.nextIdentifier)
      (hset : (p.withNewPacketIdentifier i).setQos qos = .ok outgoing) :
      Starts t i (.publish true p qos) [.send (.publish outgoing)]
        (some (TxInFlightPublications.startedEntry t.maxRetries qos outgoing))

theorem starts_of_publish {connected : Bool} {p p' : Publish} {qos : QoS}
    (hfree : t.publications.lookup i = none)
    (h : t.publish connected p qos = .ok (calls, p', t')) :
    Starts t i (.publish connected p qos) calls (t'.publications.lookup i) := by
  cases TxInFlightPublications.publishes_of_publish h with
  | nothing =>
      rw [hfree]
      exact .unused _ _ (fun _ hout => absurd hout List.not_mem_nil)
  | itself outgoing hset =>
      rw [hfree]
      refine .unused _ _ ?_
      intro out hout _
      have hsent : out = p' := by simpa using hout
      rw [hsent]
      exact Publish.qos_of_setQos hset
  | copy _ hqos outgoing hset _ =>
      rw [TxInFlightPublications.publications_update, Table.lookup_insert]
      split
      · rename_i hi
        exact .started p qos hqos outgoing hi (hi ▸ hset)
      · rename_i hi
        rw [TxInFlightPublications.publications_assign, hfree]
        refine .unused _ _ ?_
        intro out hout hid
        have hsent : out = outgoing := by simpa using hout
        rw [hsent, (Publish.setQos_frame hset).2.1] at hid
        exact absurd hid.symm hi

theorem starts_of_step (hwell : WellFormed t) (hfree : t.publications.lookup i = none)
    (h : step t e = some (.ok (calls, t'))) : Starts t i e calls (t'.publications.lookup i) := by
  cases hpublish : e.isPublish with
  | true =>
      cases e with
      | publish connected p qos =>
          obtain ⟨p', hp⟩ := step_publish_eq_some_iff.mp h
          exact starts_of_publish hfree hp
      | response | timerElapses | timeout => cases hpublish
  | false =>
      cases hentry : t'.publications.lookup i with
      | none =>
          refine .unused e calls ?_
          intro p hp hid
          obtain ⟨entry, after, hbefore, -⟩ := resent_of_step hwell hpublish h hp
          rw [hid, hfree] at hbefore
          cases hbefore
      | some after =>
          obtain ⟨entry, hbefore, -⟩ := entry_of_step hwell hpublish h hentry
          rw [hfree] at hbefore
          cases hbefore

end Steps

/-! ## Publications as objects with timers -/

/-- The timers of the publications of a table. -/
def timers : Timers UInt16 TxInFlightPublications Event where
  view t i := (t.publications.lookup i).map TxEntry.view
  elapses := .timerElapses
  timeout := .timeout
  isTimer
    | .timerElapses _ => true
    | .timeout _ => true
    | _ => false

/-- Every entry waits under its own identifier, and sends its packets again as often as it is
configured. -/
structure Configured (maxRetries : Nat) (t : TxInFlightPublications) : Prop where
  wellFormed : WellFormed t
  table : t.maxRetries = maxRetries
  entries : ∀ i entry, t.publications.lookup i = some entry → entry.maxRetries = maxRetries

theorem configured_create (maxRetries : Nat) :
    Configured maxRetries (TxInFlightPublications.create maxRetries) where
  wellFormed i entry hentry := by cases hentry
  table := rfl
  entries i entry hentry := by cases hentry

section Timers

variable {t t' : TxInFlightPublications} {e : Event} {calls : List SenderCall} {i : UInt16}
  {maxRetries : Nat} {entry : TxEntry}

theorem view_eq_some_iff {v : TimerView} : timers.view t i = some v ↔
    ∃ entry, t.publications.lookup i = some entry ∧ entry.view = v :=
  Option.map_eq_some_iff

@[simp]
theorem occupied_timers : timers.occupied t i = t.publications.contains i := by
  simp [Timers.occupied, timers, Table.contains]

/-- No event changes the configuration. -/
theorem maxRetries_of_step (hwell : WellFormed t) (h : step t e = some (.ok (calls, t'))) :
    t'.maxRetries = t.maxRetries := by
  cases step_change hwell h <;> rfl

/-- An expiration that a waiting publication survives is counted, and the timer started again. -/
theorem expired_cases (hwaits : entry.waiting = true) {timer : Timer}
    {reaction : Reaction TxEntry}
    (h : (entry.withTimer timer).ackTimeoutExpired = .ok reaction) :
    (entry.mayRetry = true ∧ reaction = ⟨[.send entry.resent], false, entry.repeated timer⟩) ∨
      (entry.mayRetry = false ∧ reaction = ⟨[], true, entry.givenUp timer⟩) := by
  rw [TxEntry.ackTimeoutExpired_of_waiting hwaits] at h
  split at h
  · rename_i hretry
    cases h
    exact Or.inl ⟨hretry, rfl⟩
  · rename_i hretry
    cases h
    exact Or.inr ⟨Bool.eq_false_iff.mpr hretry, rfl⟩

theorem Configured.step (ht : Configured maxRetries t) (h : step t e = some (.ok (calls, t'))) :
    Configured maxRetries t' := by
  have hwell := ht.wellFormed
  refine ⟨hwell.change (step_change hwell h), (maxRetries_of_step hwell h).trans ht.table, ?_⟩
  intro i after hafter
  cases hentry : t.publications.lookup i with
  | none =>
      have hstarts := starts_of_step hwell hentry h
      rw [hafter] at hstarts
      cases hstarts with
      | started p qos hqos outgoing hnext hset =>
          rw [TxInFlightPublications.startedEntry, ← ht.table]
          split <;> rfl
  | some entry =>
      have htouches := touches_of_step hwell hentry h
      have hentry' := ht.entries i entry hentry
      obtain ⟨hwaits, hid⟩ := hwell i entry hentry
      generalize hresult : t'.publications.lookup i = result at htouches
      rw [hafter] at hresult
      cases htouches with
      | untouched =>
          cases hresult
          exact hentry'
      | elapsed timer htimer =>
          cases hresult
          rw [TxEntry.maxRetries_withTimer]
          exact hentry'
      | answered ack reaction hack hackid hreaction =>
          split at hresult
          · cases hresult
          · cases hresult
            have hresponds :=
              TxEntry.responds_responseReceived hwaits (hackid.trans hid.symm) hreaction
            rw [hresponds.maxRetries]
            exact hentry'
      | expired timer reaction htimer hreaction =>
          rcases expired_cases hwaits hreaction with ⟨-, rfl⟩ | ⟨-, rfl⟩
          · cases hresult
            rw [TxEntry.maxRetries_repeated]
            exact hentry'
          · cases hresult

/-- A publication that is started waits for the first time. -/
theorem view_startedEntry (maxRetries : Nat) (qos : QoS) (p : Publish) :
    (TxInFlightPublications.startedEntry maxRetries qos p).view = ⟨true, 0, 0⟩ := by
  rw [TxInFlightPublications.startedEntry]
  split <;> rfl

/-- Events that are none of a timer leave the queued handlers alone, and count nothing. -/
theorem view_of_event (ht : Configured maxRetries t) (he : timers.isTimer e = false)
    (h : TxTable.step t e = some (.ok (calls, t'))) {v : TimerView}
    (hv : timers.view t' i = some v) :
    v.queued = ((timers.view t i).getD .idle).queued ∧
      v.count = ((timers.view t i).getD .idle).count := by
  have hwell := ht.wellFormed
  obtain ⟨after, hafter, rfl⟩ := view_eq_some_iff.mp hv
  cases hentry : t.publications.lookup i with
  | none =>
      have hstarts := starts_of_step hwell hentry h
      have hidle : timers.view t i = none := Option.map_eq_none_iff.mpr hentry
      rw [hafter] at hstarts
      cases hstarts with
      | started p qos hqos outgoing hnext hset =>
          rw [view_startedEntry, hidle]
          exact ⟨rfl, rfl⟩
  | some entry =>
      have htouches := touches_of_step hwell hentry h
      have hview : timers.view t i = some entry.view := view_eq_some_iff.mpr ⟨entry, hentry, rfl⟩
      obtain ⟨hwaits, hid⟩ := hwell i entry hentry
      rw [hview, Option.getD_some]
      generalize hresult : t'.publications.lookup i = result at htouches
      rw [hafter] at hresult
      cases htouches with
      | untouched =>
          cases hresult
          exact ⟨rfl, rfl⟩
      | elapsed | expired => cases he
      | answered ack reaction hack hackid hreaction =>
          split at hresult
          · cases hresult
          · cases hresult
            have hresponds :=
              TxEntry.responds_responseReceived hwaits (hackid.trans hid.symm) hreaction
            exact ⟨hresponds.expired, congrArg UInt16.toNat hresponds.retryCount⟩

/-- A wait elapses exactly if it is pending. -/
theorem timerElapses_eq_some_iff : TxTable.step t (.timerElapses i) = some (.ok (calls, t')) ↔
    ∃ entry timer, t.publications.lookup i = some entry ∧
      entry.retryOnTimeout.expire = some timer ∧ calls = [] ∧
        t' = t.update i (entry.withTimer timer) := by
  simp only [TxTable.step, TxInFlightPublications.timerElapses]
  cases hentry : t.publications.lookup i with
  | none => simp
  | some entry =>
      simp only [Option.map_map, Option.map_eq_some_iff, Function.comp_apply, Except.ok.injEq,
        Prod.mk.injEq]
      constructor
      · rintro ⟨timer, htimer, rfl, rfl⟩
        exact ⟨entry, timer, rfl, htimer, rfl, rfl⟩
      · rintro ⟨other, timer, hother, htimer, rfl, rfl⟩
        cases hother
        exact ⟨timer, htimer, rfl, rfl⟩

/-- A queued handler makes its publication send its packet again, or give up. -/
theorem timeout_eq_some_iff (hwell : WellFormed t) :
    TxTable.step t (.timeout i) = some (.ok (calls, t')) ↔
      ∃ entry timer, t.publications.lookup i = some entry ∧
        entry.retryOnTimeout.takeExpired = some timer ∧
          ((entry.mayRetry = true ∧ calls = [.send entry.resent] ∧
              t' = t.update i (entry.repeated timer)) ∨
            (entry.mayRetry = false ∧ calls = [] ∧ t' = t.remove i)) := by
  simp only [TxTable.step, TxInFlightPublications.timeout]
  cases hentry : t.publications.lookup i with
  | none => simp
  | some entry =>
      have hwaits := (hwell i entry hentry).1
      simp only [Option.map_eq_some_iff, TxEntry.ackTimeoutExpired_of_waiting hwaits]
      cases hretry : entry.mayRetry with
      | true =>
          simp only [if_true, Except.bind, TxInFlightPublications.settle_kept, Except.ok.injEq,
            Prod.mk.injEq]
          constructor
          · rintro ⟨timer, htimer, rfl, rfl⟩
            exact ⟨entry, timer, rfl, htimer, Or.inl ⟨hretry, rfl, rfl⟩⟩
          · rintro ⟨other, timer, hother, htimer, hresult⟩
            cases hother
            rcases hresult with ⟨-, rfl, rfl⟩ | ⟨hnot, -⟩
            · exact ⟨timer, htimer, rfl, rfl⟩
            · rw [hretry] at hnot
              cases hnot
      | false =>
          simp only [Bool.false_eq_true, if_false, Except.bind,
            TxInFlightPublications.settle_released, Except.ok.injEq, Prod.mk.injEq]
          constructor
          · rintro ⟨timer, htimer, rfl, rfl⟩
            exact ⟨entry, timer, rfl, htimer, Or.inr ⟨hretry, rfl, rfl⟩⟩
          · rintro ⟨other, timer, hother, htimer, hresult⟩
            cases hother
            rcases hresult with ⟨hmay, -⟩ | ⟨-, rfl, rfl⟩
            · rw [hretry] at hmay
              cases hmay
            · exact ⟨timer, htimer, rfl, rfl⟩

/-- Another entry shows the same timer as before. -/
theorem view_update_of_ne {k : UInt16} (hk : k ≠ i) :
    timers.view (t.update i entry) k = timers.view t k := by
  simp [timers, hk]

theorem view_update_self : timers.view (t.update i entry) i = some entry.view := by
  simp [timers]

/-- Whether a publication may send its packet again is decided by its counter. -/
theorem mayRetry_eq_view (hmax : entry.maxRetries = maxRetries) :
    entry.mayRetry = decide ((entry.view.count + 1) % 65536 ≤ maxRetries) := by
  rw [TxEntry.mayRetry_eq, hmax, UInt16.toNat_add]
  rfl

theorem view_repeated {timer : Timer}
    (htimer : entry.retryOnTimeout.takeExpired = some timer) :
    (entry.repeated timer).view =
      entry.view.restarted ((entry.view.count + 1) % 65536) := by
  obtain ⟨-, rfl⟩ := Timer.takeExpired_eq_some_iff.mp htimer
  simp only [TxEntry.view, TxEntry.retryOnTimeout_repeated, TxEntry.retryCount_repeated,
    UInt16.toNat_add, TimerView.restarted, Timer.restart, Timer.expiresFromNow, Timer.asyncWait,
    Timer.cancel_expired]
  rfl

/-- The publications of a table as objects with timers, which count their expirations with
16 bits. -/
theorem timers_lawful (maxRetries : Nat) :
    timers.Lawful TxTable.step (Configured maxRetries) maxRetries 65536 where
  preserved ht h := ht.step h
  event ht he h _ _ hv := view_of_event ht he h hv
  elapses {t i calls t'} ht h := by
    obtain ⟨entry, timer, hentry, htimer, -, rfl⟩ := timerElapses_eq_some_iff.mp h
    obtain ⟨harmed, rfl⟩ := Timer.expire_eq_some_iff.mp htimer
    refine ⟨fun k hk => view_update_of_ne hk, entry.view,
      view_eq_some_iff.mpr ⟨entry, hentry, rfl⟩, harmed, ?_⟩
    rw [view_update_self]
    simp [TxEntry.view, TimerView.elapsed]
  timeout {t i calls t'} ht h := by
    obtain ⟨entry, timer, hentry, htimer, hresult⟩ :=
      (timeout_eq_some_iff ht.wellFormed).mp h
    have hqueued := (Timer.takeExpired_eq_some_iff.mp htimer).1
    have hview : timers.view t i = some entry.view := view_eq_some_iff.mpr ⟨entry, hentry, rfl⟩
    rw [mayRetry_eq_view (ht.entries i entry hentry), decide_eq_true_eq, decide_eq_false_iff_not]
      at hresult
    rcases hresult with ⟨hle, -, rfl⟩ | ⟨hlt, -, rfl⟩
    · refine ⟨fun k hk => view_update_of_ne hk, entry.view, hview, hqueued, ?_⟩
      rw [if_pos hle, view_update_self, view_repeated htimer]
    · refine ⟨fun k hk => by simp [timers, hk], entry.view, hview, hqueued, ?_⟩
      rw [if_neg hlt]
      exact Option.map_eq_none_iff.mpr (Table.lookup_erase_self _ _)
  canElapse {t i v} ht hv harmed := by
    obtain ⟨entry, hentry, rfl⟩ := view_eq_some_iff.mp hv
    have htimer := Timer.expire_eq_some_iff.mpr ⟨harmed, rfl⟩
    exact ⟨_, _, timerElapses_eq_some_iff.mpr ⟨entry, _, hentry, htimer, rfl, rfl⟩⟩
  canRun {t i v} ht hv hqueued := by
    obtain ⟨entry, hentry, rfl⟩ := view_eq_some_iff.mp hv
    have htimer := Timer.takeExpired_eq_some_iff.mpr ⟨hqueued, rfl⟩
    cases hretry : entry.mayRetry with
    | true =>
        exact ⟨_, _, (timeout_eq_some_iff ht.wellFormed).mpr
          ⟨entry, _, hentry, htimer, Or.inl ⟨hretry, rfl, rfl⟩⟩⟩
    | false =>
        exact ⟨_, _, (timeout_eq_some_iff ht.wellFormed).mpr
          ⟨entry, _, hentry, htimer, Or.inr ⟨hretry, rfl, rfl⟩⟩⟩

end Timers

/-! ## Runs -/

/-- A table with the handlers that are queued. -/
abbrev WatchedTable := Watched UInt16 TxInFlightPublications

/-- What happens to a table: packets are published, clients respond, waits elapse and handlers
run, late ones included. -/
abbrev Incident := Occasion UInt16 Event

/-- The machine of one table with its timers. -/
def lifetimes : Machine (Option WatchedTable) Incident (Except Fault (List SenderCall)) :=
  Watched.machine timers step

/-- Executed steps of the machine. -/
abbrev LifetimeStep := Watched.WatchedStep UInt16 TxInFlightPublications Event SenderCall Fault

/-- Nothing has been published yet. -/
def initially (maxRetries : Nat) : WatchedTable :=
  Watched.start (TxInFlightPublications.create maxRetries)

/-- The publications that the machine stores. -/
def objects : Watch lifetimes timers.occupied := Watched.objects timers step

/-- What is known of a table and its handlers after some steps. -/
abbrev Accounted (maxRetries : Nat) (steps : List LifetimeStep) (s : WatchedTable) : Prop :=
  Watched.Accounted timers maxRetries 65536 (Configured maxRetries) steps s

section Runs

variable {maxRetries : Nat} {steps : List LifetimeStep} {s s' : WatchedTable} {o : Incident}
  {output : Except Fault (List SenderCall)} {r : Incarnation UInt16} {entry : TxEntry}

theorem accounted_of_run (h : lifetimes.Run (some (initially maxRetries)) steps (some s)) :
    Accounted maxRetries steps s :=
  Watched.Balanced.of_run (timers_lawful maxRetries) (configured_create maxRetries)
    (fun _ => rfl) h

/-- Seen without its queued handlers it runs as the table does alone. -/
theorem exists_run_table (h : lifetimes.Run (some (initially maxRetries)) steps (some s)) :
    ∃ steps', table.Run (some (TxInFlightPublications.create maxRetries)) steps' (some s.state) :=
  Watched.exists_run_state h

/-- A step publishes no packet that becomes too long. -/
def Fitting (x : LifetimeStep) : Prop := ∀ e, x.event = .event e → e.Fits

/-- What a step sends has been accepted before. -/
theorem encodable_of_lifetimeStep {calls : List SenderCall} (hwell : WellFormed s.state)
    (hall : AllEncodable s.state)
    (h : lifetimes.step (some s) o = some (.ok calls, some s'))
    (hfits : Fitting ⟨some s, o, .ok calls, some s'⟩) :
    AllEncodable s'.state ∧
      ∀ p, .publish p ∈ sentPackets calls → Encodable (.publish p) := by
  obtain ⟨calls', heq, hmoves⟩ := Watched.moves_of_step h
  cases heq
  cases hmoves with
  | event e _ t hkind hstep => exact encodable_of_step hwell hall (hfits e rfl) hstep
  | elapses r _ t hr hstep =>
      exact encodable_of_step (e := .timerElapses r.key) hwell hall trivial hstep
  | handler r _ t hqueued hr hstep =>
      exact encodable_of_step (e := .timeout r.key) hwell hall trivial hstep
  | late r hqueued hr => exact ⟨hall, fun _ hsent => absurd hsent List.not_mem_nil⟩

theorem allEncodable_of_run (h : lifetimes.Run (some (initially maxRetries)) steps (some s))
    (hfits : ∀ x ∈ steps, Fitting x) : AllEncodable s.state := by
  refine h.alive_invariant (fun _ => rfl) Fitting (fun _ s => AllEncodable s.state) ?_ ?_ hfits
  · intro i entry hentry
    cases hentry
  · intro pre s o output s' hpre hall hstep hfit
    obtain ⟨calls, rfl, -⟩ := Watched.moves_of_step hstep
    exact (encodable_of_lifetimeStep (accounted_of_run hpre).1.wellFormed hall hstep hfit).1

/-- The encoder accepts every PUBLISH that some steps send. -/
def Encoded (steps : List LifetimeStep) : Prop :=
  ∀ x ∈ steps, ∀ calls, x.output = .ok calls → ∀ p, .publish p ∈ sentPackets calls →
    ∃ bytes, encoding (.publish p) = .ok bytes

theorem encoded_of_run (h : lifetimes.Run (some (initially maxRetries)) steps (some s))
    (hfits : ∀ x ∈ steps, Fitting x) : Encoded steps := by
  intro x hx calls houtput p hp
  obtain ⟨pre, post, hsplit⟩ := List.append_of_mem hx
  obtain ⟨before, after, heq, hpre, hstep, -⟩ := h.alive_split (fun _ => rfl) hsplit
  have hfit := hfits x hx
  rw [heq, houtput] at hfit
  rw [houtput] at hstep
  have hbefore : AllEncodable before.state := allEncodable_of_run hpre fun y hy =>
    hfits y (by rw [hsplit]; exact List.mem_append_left _ hy)
  have hstepped := encodable_of_lifetimeStep (accounted_of_run hpre).1.wellFormed hbefore hstep hfit
  exact ⟨_, encoding_eq (hstepped.2 p hp)⟩

/-- A publication that is stored has an entry. -/
theorem exists_entry (hs : Accounted maxRetries steps s) (hr : s.Stores r) :
    ∃ entry, s.state.publications.lookup r.key = some entry := by
  obtain ⟨v, hv⟩ := Watched.exists_view hs.2.consistent hr
  obtain ⟨entry, hentry, -⟩ := view_eq_some_iff.mp hv
  exact ⟨entry, hentry⟩

/-- An entry belongs to a publication. -/
theorem exists_publication {i : UInt16} (hs : Accounted maxRetries steps s)
    (hentry : s.state.publications.lookup i = some entry) : ∃ n, s.Stores ⟨i, n⟩ := by
  apply hs.2.consistent.exists_stores
  rw [occupied_timers]
  exact (Table.contains_eq_true_iff _ _).mpr ⟨entry, hentry⟩

/-- What a step does to a publication that is stored. -/
inductive Lives (r : Incarnation UInt16) (entry : TxEntry) :
    Incident → List SenderCall → Option TxEntry → Prop
  /-- The step does not concern the publication, whose packet is not sent either. -/
  | untouched (o : Incident) (calls : List SenderCall) (hhandler : o.handles r = false)
      (hack : ∀ ack, o = .event (.response true ack) → ack.packetIdentifier ≠ r.key)
      (hsent : ∀ p, .publish p ∈ sentPackets calls → p.packetIdentifier = r.key →
        p.qos = .atMostOnce) :
      Lives r entry o calls (some entry)
  | elapsed (timer : Timer) (htimer : entry.retryOnTimeout.expire = some timer) :
      Lives r entry (.elapses r.key) [] (some (entry.withTimer timer))
  | answered (ack : PublishAck) (reaction : Reaction TxEntry) (hack : isResponse ack = true)
      (hid : ack.packetIdentifier = r.key) (hreaction : entry.responseReceived ack = .ok reaction) :
      Lives r entry (.event (.response true ack)) reaction.calls
        (if reaction.released then none else some reaction.after)
  | resent (timer : Timer) (htimer : entry.retryOnTimeout.takeExpired = some timer)
      (hretry : entry.mayRetry = true) :
      Lives r entry (.handler r) [.send entry.resent] (some (entry.repeated timer))
  | failed (timer : Timer) (htimer : entry.retryOnTimeout.takeExpired = some timer)
      (hretry : entry.mayRetry = false) : Lives r entry (.handler r) [] none

theorem lives_of_step (hs : Accounted maxRetries steps s)
    (h : lifetimes.step (some s) o = some (output, some s')) (hr : s.Stores r)
    (hentry : s.state.publications.lookup r.key = some entry) :
    ∃ calls, output = .ok calls ∧
      Lives r entry o calls (s'.state.publications.lookup r.key) := by
  obtain ⟨calls, rfl, hmoves⟩ := Watched.moves_of_step h
  refine ⟨calls, rfl, ?_⟩
  have hwell := hs.1.wellFormed
  cases hmoves with
  | event e calls t hkind ht =>
      have htouches := touches_of_step hwell hentry ht
      change Lives r entry (.event e) calls (t.publications.lookup r.key)
      generalize t.publications.lookup r.key = result at htouches ⊢
      cases htouches with
      | untouched _ _ he hsent =>
          refine .untouched (.event e) calls rfl ?_ hsent
          intro ack hack hid
          cases hack
          simp [Event.concerns, hid] at he
      | elapsed | expired => cases hkind
      | answered ack reaction hack hid hreaction => exact .answered ack reaction hack hid hreaction
  | elapses r' calls t hr' ht =>
      have htouches := touches_of_step hwell hentry ht
      change Lives r entry (.elapses r'.key) calls (t.publications.lookup r.key)
      generalize t.publications.lookup r.key = result at htouches ⊢
      generalize he : timers.elapses r'.key = e at htouches
      cases htouches with
      | untouched _ _ _ hsent => exact .untouched (.elapses r'.key) calls rfl nofun hsent
      | elapsed timer htimer =>
          have hkey : r'.key = r.key := Event.timerElapses.inj he
          rw [hkey]
          exact .elapsed timer htimer
      | answered | expired => cases he
  | handler r' calls t hqueued hr' ht =>
      have htouches := touches_of_step hwell hentry ht
      change Lives r entry (.handler r') calls (t.publications.lookup r.key)
      generalize t.publications.lookup r.key = result at htouches ⊢
      generalize he : timers.timeout r'.key = e at htouches
      cases htouches with
      | untouched _ _ hother hsent =>
          refine .untouched (.handler r') calls (decide_eq_false ?_) nofun hsent
          rintro rfl
          rw [← he] at hother
          simp [timers, Event.concerns] at hother
      | elapsed | answered => cases he
      | expired timer reaction htimer hreaction =>
          have hkey : r'.key = r.key := Event.timeout.inj he
          rw [hr'.unique hr hkey]
          rcases expired_cases (hwell _ _ hentry).1 hreaction with ⟨hretry, rfl⟩ | ⟨hretry, rfl⟩
          · exact .resent timer htimer hretry
          · exact .failed timer htimer hretry
  | late r' hqueued hr' =>
      change Lives r entry (.handler r') [] (s.state.publications.lookup r.key)
      rw [hentry]
      refine .untouched (.handler r') [] (decide_eq_false ?_) nofun
        (fun _ hout => absurd hout List.not_mem_nil)
      rintro rfl
      exact hr' hr

/-- A publication stays stored as long as it has an entry. -/
theorem stores_iff_of_step (hs : Accounted maxRetries steps s)
    (h : lifetimes.step (some s) o = some (output, some s')) (hr : s.Stores r) :
    s'.Stores r ↔ ∃ after, s'.state.publications.lookup r.key = some after := by
  have hiff : s'.Stores r ↔ timers.occupied s'.state r.key = true :=
    Watch.stores_iff_inUse (W := objects) hs.2.consistent hr h
  rw [hiff, occupied_timers, Table.contains_eq_true_iff]

/-- A publication that a step removes leaves its identifier free. -/
theorem lookup_eq_none_of_step (hs : Accounted maxRetries steps s)
    (h : lifetimes.step (some s) o = some (output, some s')) (hr : s.Stores r)
    (hnot : ¬ s'.Stores r) : s'.state.publications.lookup r.key = none := by
  rw [Option.eq_none_iff_forall_not_mem]
  intro after hafter
  exact hnot ((stores_iff_of_step hs h hr).mpr ⟨after, hafter⟩)

/-- What a step does under an identifier that is not in use: nothing, or it starts the next
publication. -/
theorem begins_of_step (hs : Accounted maxRetries steps s)
    (h : lifetimes.step (some s) o = some (output, some s')) {i : UInt16}
    (hfree : s.state.publications.lookup i = none) :
    (s'.state.publications.lookup i = none ∧ ∃ calls, output = .ok calls ∧
      ∀ p, .publish p ∈ sentPackets calls → p.packetIdentifier = i → p.qos = .atMostOnce) ∨
    ∃ p qos outgoing, (qos = .atLeastOnce ∨ qos = .exactlyOnce) ∧
      o = .event (.publish true p qos) ∧ i = s.state.nextIdentifier ∧
      (p.withNewPacketIdentifier i).setQos qos = .ok outgoing ∧
      output = .ok [.send (.publish outgoing)] ∧ s'.state.publications.lookup i =
        some (TxInFlightPublications.startedEntry maxRetries qos outgoing) := by
  obtain ⟨calls, rfl, hmoves⟩ := Watched.moves_of_step h
  have hwell := hs.1.wellFormed
  cases hmoves with
  | event e calls t hkind ht =>
      have hstarts := starts_of_step hwell hfree ht
      generalize hresult : t.publications.lookup i = result at hstarts
      cases hstarts with
      | unused _ _ hsent => exact Or.inl ⟨hresult, calls, rfl, hsent⟩
      | started p qos hqos outgoing hnext hset =>
          rw [hs.1.table] at hresult
          exact Or.inr ⟨p, qos, outgoing, hqos, rfl, hnext, hset, rfl, hresult⟩
  | elapses r' calls t hr' ht =>
      have hstarts := starts_of_step hwell hfree ht
      generalize he : timers.elapses r'.key = e at hstarts
      generalize hresult : t.publications.lookup i = result at hstarts
      cases hstarts with
      | unused _ _ hsent => exact Or.inl ⟨hresult, calls, rfl, hsent⟩
      | started => cases he
  | handler r' calls t hqueued hr' ht =>
      have hstarts := starts_of_step hwell hfree ht
      generalize he : timers.timeout r'.key = e at hstarts
      generalize hresult : t.publications.lookup i = result at hstarts
      cases hstarts with
      | unused _ _ hsent => exact Or.inl ⟨hresult, calls, rfl, hsent⟩
      | started => cases he
  | late r' hqueued hr' =>
      exact Or.inl ⟨hfree, [], rfl, fun _ hout => absurd hout List.not_mem_nil⟩

/-- A publication that is started gets the next identifier, which is free. -/
theorem publish_of_step (hs : Accounted maxRetries steps s) {p : Publish} {qos : QoS}
    (hqos : qos = .atLeastOnce ∨ qos = .exactlyOnce)
    (h : lifetimes.step (some s) (.event (.publish true p qos)) = some (output, some s')) :
    ∃ outgoing, (p.withNewPacketIdentifier s.state.nextIdentifier).setQos qos = .ok outgoing ∧
      output = .ok [.send (.publish outgoing)] ∧ s'.Stores ⟨s.state.nextIdentifier, s.next⟩ ∧
      s'.state.publications.lookup s.state.nextIdentifier =
        some (TxInFlightPublications.startedEntry maxRetries qos outgoing) := by
  obtain ⟨calls, rfl, hmoves⟩ := Watched.moves_of_step h
  cases hmoves with
  | event e calls t hkind ht =>
      obtain ⟨p', hp⟩ := step_publish_eq_some_iff.mp ht
      obtain ⟨outgoing, hset, hfree, rfl, -, rfl⟩ :=
        (TxInFlightPublications.publish_numbered_eq_ok_iff hqos).mp hp
      refine ⟨outgoing, hset, rfl, ?_, ?_⟩
      · refine Tracked.stores_new hs.2.consistent ?_ ?_
        · rw [occupied_timers]
          exact (Table.contains_eq_false_iff _ _).mpr hfree
        · rw [occupied_timers]
          exact (Table.contains_eq_true_iff _ _).mpr ⟨_, Table.lookup_insert_self _ _ _⟩
      · simp [hs.1.table]

/-- The next publication can be started if its identifier is free. -/
theorem exists_step_publish {p : Publish} {qos : QoS} (hp : p.qos ≠ .reserved)
    (hqos : qos = .atLeastOnce ∨ qos = .exactlyOnce)
    (hfree : s.state.publications.lookup s.state.nextIdentifier = none) :
    ∃ output s', lifetimes.step (some s) (.event (.publish true p qos)) =
      some (output, some s') ∧ s'.queue = s.queue := by
  have hp' : (p.withNewPacketIdentifier s.state.nextIdentifier).qos ≠ .reserved := hp
  obtain ⟨outgoing, hset⟩ := Publish.setQos_eq_ok hp' qos
  have hpublish := (TxInFlightPublications.publish_numbered_eq_ok_iff hqos).mpr
    ⟨outgoing, hset, hfree, rfl, rfl, rfl⟩
  have hstep : step s.state (.publish true p qos) = some (.ok ([.send (.publish outgoing)],
      s.state.assign.update s.state.nextIdentifier
        (TxInFlightPublications.startedEntry s.state.maxRetries qos outgoing))) :=
    step_publish_eq_some_iff.mpr ⟨_, hpublish⟩
  exact ⟨_, _, Watched.step_event rfl hstep, rfl⟩

/-- A first publication can be started. -/
theorem exists_run_started (maxRetries : Nat) (p : Publish) (qos : QoS) (hp : p.qos ≠ .reserved)
    (hqos : qos = .atLeastOnce ∨ qos = .exactlyOnce) :
    ∃ outgoing s', (p.withNewPacketIdentifier 1).setQos qos = .ok outgoing ∧
      lifetimes.Run (some (initially maxRetries))
        [⟨some (initially maxRetries), .event (.publish true p qos),
          .ok [.send (.publish outgoing)], some s'⟩] (some s') ∧
      s'.Stores ⟨1, 0⟩ ∧ s'.state.publications.lookup 1 =
        some (TxInFlightPublications.startedEntry maxRetries qos outgoing) ∧ s'.queue = [] := by
  have hs : Accounted maxRetries [] (initially maxRetries) := accounted_of_run (Machine.Run.nil _)
  obtain ⟨output, s', hstep, hqueue⟩ := exists_step_publish hp hqos
    (rfl : (initially maxRetries).state.publications.lookup _ = none)
  obtain ⟨outgoing, hset, rfl, hstores, hentry⟩ := publish_of_step hs hqos hstep
  exact ⟨outgoing, s', hset, Machine.Run.single hstep, hstores, hentry, hqueue⟩

end Runs

end TxTable

end Dispatch
end WallyIo
