import WallyIo.Dispatch.RxTable
import WallyIo.Library.WeakHandlers

/-!
# The lifetimes of incoming publications

An incoming publication is stored when its PUBLISH has been answered by a PUBREC, and is
released by the client's PUBREL or when its retries are used up.  All the while it has exactly
one wait to look forward to.

Main results:

- Theorem {lit}`timers_lawful`: the publications of a table as objects with timers.
- Theorem {lit}`exists_run_table`: a table with late handlers runs as the table alone.
- Theorem {lit}`exists_of_run`: no assertion fails in any run.
- Theorem {lit}`singleWait_of_run`: every publication has exactly one pending wait.
- Theorem {lit}`receiver_of_run`: moreover no publication is released twice, and none is answered
  by a PUBREC after its PUBCOMP.
-/

namespace WallyIo
namespace Dispatch

open Protocol Library

namespace RxPublication

/-- What is seen of a publication and its timer. -/
def view (p : RxPublication) : TimerView :=
  ⟨p.retryOnTimeout.armed, p.retryOnTimeout.expired, p.retryCount.toNat⟩

/-- A publication that has sent its PUBREC again. -/
def repeated (timer : Timer) (p : RxPublication) : RxPublication :=
  { p with
    state := .waitingForRel, retryCount := p.retryCount + 1, retryOnTimeout := timer.restart }

/-- A publication that has been given up. -/
def givenUp (timer : Timer) (p : RxPublication) : RxPublication :=
  { p with
    state := .terminallyFailed, retryCount := p.retryCount + 1, retryOnTimeout := timer }

/-- What a waiting publication does when its timer has expired. -/
theorem pubrelTimeoutExpired_of_waiting {p : RxPublication} (h : p.state = .waitingForRel)
    (timer : Timer) :
    ({ p with retryOnTimeout := timer } : RxPublication).pubrelTimeoutExpired =
      if p.mayRetry = true then .ok ⟨[.send p.pubrec], false, p.repeated timer⟩
      else .ok ⟨[], true, p.givenUp timer⟩ :=
  pubrelTimeoutExpired_of_waitingForRel { p with retryOnTimeout := timer } h

theorem view_repeated {p : RxPublication} {timer : Timer}
    (htimer : p.retryOnTimeout.takeExpired = some timer) :
    (p.repeated timer).view = p.view.restarted ((p.view.count + 1) % 65536) := by
  obtain ⟨-, rfl⟩ := Timer.takeExpired_eq_some_iff.mp htimer
  simp only [view, repeated, UInt16.toNat_add, TimerView.restarted, Timer.restart,
    Timer.expiresFromNow, Timer.asyncWait, Timer.cancel_expired]
  rfl

end RxPublication

namespace RxTable

/-! ## What the timers do -/

section Steps

variable {t t' : RxInFlightPublications} {e : Event} {calls : List SenderCall} {i : UInt16}
  {p : RxPublication}

/-- A wait elapses exactly if it is pending. -/
theorem timerElapses_eq_some_iff : step t (.timerElapses i) = some (.ok (calls, t')) ↔
    ∃ p timer, t.publications.lookup i = some p ∧ p.retryOnTimeout.expire = some timer ∧
      calls = [] ∧ t' = t.update i { p with retryOnTimeout := timer } := by
  simp only [step, RxInFlightPublications.timerElapses]
  cases hp : t.publications.lookup i with
  | none => simp
  | some p =>
      simp only [Option.map_map, Option.map_eq_some_iff, Function.comp_apply, Except.ok.injEq,
        Prod.mk.injEq]
      constructor
      · rintro ⟨timer, htimer, rfl, rfl⟩
        exact ⟨p, timer, rfl, htimer, rfl, rfl⟩
      · rintro ⟨other, timer, hother, htimer, rfl, rfl⟩
        cases hother
        exact ⟨timer, htimer, rfl, rfl⟩

/-- A queued handler makes its publication send its PUBREC again, or give up. -/
theorem timeout_eq_some_iff (hwell : WellFormed t) :
    step t (.timeout i) = some (.ok (calls, t')) ↔
      ∃ p timer, t.publications.lookup i = some p ∧
        p.retryOnTimeout.takeExpired = some timer ∧
          ((p.mayRetry = true ∧ calls = [.send p.pubrec] ∧ t' = t.update i (p.repeated timer)) ∨
            (p.mayRetry = false ∧ calls = [] ∧ t' = t.remove i)) := by
  simp only [step, RxInFlightPublications.timeout]
  cases hp : t.publications.lookup i with
  | none => simp
  | some p =>
      have hwaits := (hwell i p hp).1
      simp only [Option.map_eq_some_iff, RxPublication.pubrelTimeoutExpired_of_waiting hwaits]
      cases hretry : p.mayRetry with
      | true =>
          simp only [if_true, Except.bind, RxInFlightPublications.settle_kept, Except.ok.injEq,
            Prod.mk.injEq]
          constructor
          · rintro ⟨timer, htimer, rfl, rfl⟩
            exact ⟨p, timer, rfl, htimer, Or.inl ⟨hretry, rfl, rfl⟩⟩
          · rintro ⟨other, timer, hother, htimer, hresult⟩
            cases hother
            rcases hresult with ⟨-, rfl, rfl⟩ | ⟨hnot, -⟩
            · exact ⟨timer, htimer, rfl, rfl⟩
            · rw [hretry] at hnot
              cases hnot
      | false =>
          simp only [Bool.false_eq_true, if_false, Except.bind,
            RxInFlightPublications.settle_released, Except.ok.injEq, Prod.mk.injEq]
          constructor
          · rintro ⟨timer, htimer, rfl, rfl⟩
            exact ⟨p, timer, rfl, htimer, Or.inr ⟨hretry, rfl, rfl⟩⟩
          · rintro ⟨other, timer, hother, htimer, hresult⟩
            cases hother
            rcases hresult with ⟨hmay, -⟩ | ⟨-, rfl, rfl⟩
            · rw [hretry] at hmay
              cases hmay
            · exact ⟨timer, htimer, rfl, rfl⟩

/-- What a packet of the client does to a table. -/
inductive Receives (t : RxInFlightPublications) :
    Event → List SenderCall → RxInFlightPublications → Prop
  /-- No publication is concerned. -/
  | ignored (e : Event) (calls : List SenderCall)
      (hsent : ∀ i, .publishAck (.pubrec i) ∉ sentPackets calls ∧
        .publishAck (.pubcomp i) ∉ sentPackets calls) : Receives t e calls t
  /-- A publication is stored and answered. -/
  | stored (p : Publish) (hfree : t.publications.lookup p.packetIdentifier = none) :
      Receives t (.publish true p) [.send (.publishAck (.pubrec p.packetIdentifier))]
        (t.update p.packetIdentifier (t.received p))
  /-- A publication is completed and released. -/
  | completed (i : UInt16) (p : RxPublication) (hp : t.publications.lookup i = some p) :
      Receives t (.pubrel true i) [.send (.publishAck (.pubcomp i))] (t.remove i)

/-- Whether an event is one of a timer. -/
def Event.isTimer : Event → Bool
  | .timerElapses _ => true
  | .timeout _ => true
  | _ => false

theorem receives_of_step (hwell : WellFormed t) (he : e.isTimer = false)
    (h : step t e = some (.ok (calls, t'))) : Receives t e calls t' := by
  cases e with
  | publish connected p =>
      simp only [step, Option.some.injEq] at h
      cases hp : t.publications.lookup p.packetIdentifier with
      | some stored =>
          rw [RxInFlightPublications.clientSentPublish_duplicate hp] at h
          cases h
          exact .ignored _ _ (by simp)
      | none =>
          rw [RxInFlightPublications.clientSentPublish_of_free connected hp] at h
          simp only [Except.map, RxInFlightPublications.firstAnswer,
            RxInFlightPublications.afterFirst] at h
          cases connected with
          | false =>
              cases h
              exact .ignored _ _ (by simp)
          | true =>
              cases hqos : p.qos with
              | exactlyOnce =>
                  simp only [hqos] at h
                  cases h
                  exact .stored p hp
              | atLeastOnce | atMostOnce | reserved =>
                  simp only [hqos] at h
                  cases h
                  exact .ignored _ _ (by simp)
  | pubrel connected i =>
      simp only [step, Option.some.injEq] at h
      cases connected with
      | false =>
          cases h
          exact .ignored _ _ (by simp)
      | true =>
          cases hp : t.publications.lookup i with
          | none =>
              rw [RxInFlightPublications.clientSentPubrel_unknown hp] at h
              cases h
              exact .ignored _ _ (by simp)
          | some p =>
              obtain ⟨hstate, hid⟩ := hwell i p hp
              rw [RxInFlightPublications.clientSentPubrel_known hp hstate hid] at h
              cases h
              exact .completed i p hp
  | timerElapses | timeout => cases he

end Steps

/-! ## Publications as objects with timers -/

/-- The timers of the publications of a table. -/
def timers : Timers UInt16 RxInFlightPublications Event where
  view t i := (t.publications.lookup i).map RxPublication.view
  elapses := .timerElapses
  timeout := .timeout
  isTimer := Event.isTimer

/-- Every entry waits under its own identifier, and sends its PUBREC again as often as it is
configured. -/
structure Configured (maxRetries : Nat) (t : RxInFlightPublications) : Prop where
  wellFormed : WellFormed t
  table : t.maxRetries = maxRetries
  entries : ∀ i p, t.publications.lookup i = some p → p.maxRetries = maxRetries

theorem configured_create (maxRetries : Nat) :
    Configured maxRetries (RxInFlightPublications.create maxRetries) where
  wellFormed i p hp := by cases hp
  table := rfl
  entries i p hp := by cases hp

section Timers

variable {t t' : RxInFlightPublications} {e : Event} {calls : List SenderCall} {i k : UInt16}
  {maxRetries : Nat} {p : RxPublication}

theorem view_eq_some_iff {v : TimerView} : timers.view t i = some v ↔
    ∃ p, t.publications.lookup i = some p ∧ p.view = v :=
  Option.map_eq_some_iff

@[simp]
theorem occupied_timers : timers.occupied t i = t.publications.contains i := by
  simp [Timers.occupied, timers, Table.contains]

theorem view_update_of_ne (hk : k ≠ i) : timers.view (t.update i p) k = timers.view t k := by
  simp [timers, hk]

theorem view_update_self : timers.view (t.update i p) i = some p.view := by
  simp [timers]

/-- Replacing an entry by one that is configured in the same way. -/
theorem Configured.update (ht : Configured maxRetries t) (hstate : p.state = .waitingForRel)
    (hid : p.publishId = i) (hmax : p.maxRetries = maxRetries) :
    Configured maxRetries (t.update i p) := by
  refine ⟨?_, ht.table, ?_⟩
  · intro j q hq
    rw [RxInFlightPublications.publications_update, Table.lookup_insert] at hq
    split at hq
    · rename_i hj
      cases hq
      exact ⟨hstate, hid.trans hj.symm⟩
    · exact ht.wellFormed j q hq
  · intro j q hq
    rw [RxInFlightPublications.publications_update, Table.lookup_insert] at hq
    split at hq
    · cases hq
      exact hmax
    · exact ht.entries j q hq

theorem Configured.remove (ht : Configured maxRetries t) : Configured maxRetries (t.remove i) := by
  have hkept {j : UInt16} {q : RxPublication}
      (hq : (t.remove i).publications.lookup j = some q) : t.publications.lookup j = some q := by
    rw [RxInFlightPublications.publications_remove, Table.lookup_erase] at hq
    split at hq
    · cases hq
    · exact hq
  exact ⟨fun j q hq => ht.wellFormed j q (hkept hq), ht.table,
    fun j q hq => ht.entries j q (hkept hq)⟩

theorem Configured.step (ht : Configured maxRetries t)
    (h : RxTable.step t e = some (.ok (calls, t'))) : Configured maxRetries t' := by
  cases he : e.isTimer with
  | false =>
      cases receives_of_step ht.wellFormed he h with
      | ignored => exact ht
      | stored p hfree => exact ht.update rfl rfl ht.table
      | completed i p hp => exact ht.remove
  | true =>
      cases e with
      | publish | pubrel => cases he
      | timerElapses i =>
          obtain ⟨p, timer, hp, -, -, rfl⟩ := timerElapses_eq_some_iff.mp h
          obtain ⟨hstate, hid⟩ := ht.wellFormed i p hp
          exact ht.update hstate hid (ht.entries i p hp)
      | timeout i =>
          obtain ⟨p, timer, hp, -, ⟨-, -, rfl⟩ | ⟨-, -, rfl⟩⟩ :=
            (timeout_eq_some_iff ht.wellFormed).mp h
          · exact ht.update rfl (ht.wellFormed i p hp).2 (ht.entries i p hp)
          · exact ht.remove

/-- Whether a publication may send its PUBREC again is decided by its counter. -/
theorem mayRetry_eq_view (hmax : p.maxRetries = maxRetries) :
    p.mayRetry = decide ((p.view.count + 1) % 65536 ≤ maxRetries) := by
  rw [RxPublication.mayRetry, hmax, UInt16.toNat_add]
  rfl

/-- The publications of a table as objects with timers, which count their expirations with
16 bits. -/
theorem timers_lawful (maxRetries : Nat) :
    timers.Lawful RxTable.step (Configured maxRetries) maxRetries 65536 where
  preserved ht h := ht.step h
  event {t e calls t'} ht he h k v hv := by
    cases receives_of_step ht.wellFormed he h with
    | ignored =>
        rw [hv]
        exact ⟨rfl, rfl⟩
    | stored p hfree =>
        by_cases hk : k = p.packetIdentifier
        · subst hk
          have hidle : timers.view t p.packetIdentifier = none := Option.map_eq_none_iff.mpr hfree
          rw [view_update_self] at hv
          cases hv
          rw [hidle]
          exact ⟨rfl, rfl⟩
        · rw [view_update_of_ne hk] at hv
          rw [hv]
          exact ⟨rfl, rfl⟩
    | completed i p hp =>
        have hsame : timers.view t k = some v := by
          obtain ⟨q, hq, rfl⟩ := view_eq_some_iff.mp hv
          rw [RxInFlightPublications.publications_remove, Table.lookup_erase] at hq
          split at hq
          · cases hq
          · exact view_eq_some_iff.mpr ⟨q, hq, rfl⟩
        rw [hsame]
        exact ⟨rfl, rfl⟩
  elapses {t i calls t'} ht h := by
    obtain ⟨p, timer, hp, htimer, -, rfl⟩ := timerElapses_eq_some_iff.mp h
    obtain ⟨harmed, rfl⟩ := Timer.expire_eq_some_iff.mp htimer
    refine ⟨fun k hk => view_update_of_ne hk, p.view, view_eq_some_iff.mpr ⟨p, hp, rfl⟩,
      harmed, ?_⟩
    rw [view_update_self]
    rfl
  timeout {t i calls t'} ht h := by
    obtain ⟨p, timer, hp, htimer, hresult⟩ := (timeout_eq_some_iff ht.wellFormed).mp h
    have hqueued := (Timer.takeExpired_eq_some_iff.mp htimer).1
    have hview : timers.view t i = some p.view := view_eq_some_iff.mpr ⟨p, hp, rfl⟩
    rw [mayRetry_eq_view (ht.entries i p hp), decide_eq_true_eq, decide_eq_false_iff_not]
      at hresult
    rcases hresult with ⟨hle, -, rfl⟩ | ⟨hlt, -, rfl⟩
    · refine ⟨fun k hk => view_update_of_ne hk, p.view, hview, hqueued, ?_⟩
      rw [if_pos hle, view_update_self, RxPublication.view_repeated htimer]
    · refine ⟨fun k hk => by simp [timers, hk], p.view, hview, hqueued, ?_⟩
      rw [if_neg hlt]
      exact Option.map_eq_none_iff.mpr (Table.lookup_erase_self _ _)
  canElapse {t i v} ht hv harmed := by
    obtain ⟨p, hp, rfl⟩ := view_eq_some_iff.mp hv
    have htimer := Timer.expire_eq_some_iff.mpr ⟨harmed, rfl⟩
    exact ⟨_, _, timerElapses_eq_some_iff.mpr ⟨p, _, hp, htimer, rfl, rfl⟩⟩
  canRun {t i v} ht hv hqueued := by
    obtain ⟨p, hp, rfl⟩ := view_eq_some_iff.mp hv
    have htimer := Timer.takeExpired_eq_some_iff.mpr ⟨hqueued, rfl⟩
    cases hretry : p.mayRetry with
    | true =>
        exact ⟨_, _, (timeout_eq_some_iff ht.wellFormed).mpr
          ⟨p, _, hp, htimer, Or.inl ⟨hretry, rfl, rfl⟩⟩⟩
    | false =>
        exact ⟨_, _, (timeout_eq_some_iff ht.wellFormed).mpr
          ⟨p, _, hp, htimer, Or.inr ⟨hretry, rfl, rfl⟩⟩⟩

end Timers

/-! ## Runs -/

/-- A table with the handlers that are queued. -/
abbrev WatchedTable := Watched UInt16 RxInFlightPublications

/-- What happens to a table: the client sends packets, waits elapse and handlers run, late ones
included. -/
abbrev Incident := Occasion UInt16 Event

/-- The machine of one table with its timers. -/
def lifetimes : Machine (Option WatchedTable) Incident (Except Fault (List SenderCall)) :=
  Watched.machine timers step

/-- Executed steps of the machine. -/
abbrev LifetimeStep := Watched.WatchedStep UInt16 RxInFlightPublications Event SenderCall Fault

/-- Nothing has been received yet. -/
def initially (maxRetries : Nat) : WatchedTable :=
  Watched.start (RxInFlightPublications.create maxRetries)

/-- The publications that the machine stores. -/
def objects : Watch lifetimes timers.occupied := Watched.objects timers step

/-- What is known of a table and its handlers after some steps. -/
abbrev Accounted (maxRetries : Nat) (steps : List LifetimeStep) (s : WatchedTable) : Prop :=
  Watched.Accounted timers maxRetries 65536 (Configured maxRetries) steps s

/-- Every publication is stored under its own identifier, waits for a PUBREL, and has exactly one
pending wait: its timer is armed, or has expired and its handler is queued. -/
def SingleWait (s : WatchedTable) : Prop :=
  ∀ i p, s.state.publications.lookup i = some p → p.publishId = i ∧ p.state = .waitingForRel ∧
    ∃ n, s.Stores ⟨i, n⟩ ∧
      (s.queue.count ⟨i, n⟩ + if p.retryOnTimeout.armed = true then 1 else 0) = 1

/-- A step sends a packet. -/
def SendsIn (x : LifetimeStep) (packet : MqttPacket) : Prop :=
  ∃ calls, x.output = .ok calls ∧ packet ∈ sentPackets calls

/-- A step answers a publication by its PUBCOMP. -/
def Completes (r : Incarnation UInt16) (x : LifetimeStep) : Prop :=
  objects.stored x.before r = true ∧ SendsIn x (.publishAck (.pubcomp r.key))

section Runs

variable {maxRetries : Nat} {steps : List LifetimeStep} {s s' : WatchedTable} {o : Incident}
  {output : Except Fault (List SenderCall)} {r : Incarnation UInt16}

theorem accounted_of_run (h : lifetimes.Run (some (initially maxRetries)) steps (some s)) :
    Accounted maxRetries steps s :=
  Watched.Balanced.of_run (timers_lawful maxRetries) (configured_create maxRetries)
    (fun _ => rfl) h

/-- Seen without its queued handlers it runs as the table does alone. -/
theorem exists_run_table (h : lifetimes.Run (some (initially maxRetries)) steps (some s)) :
    ∃ steps', table.Run (some (RxInFlightPublications.create maxRetries)) steps' (some s.state) :=
  Watched.exists_run_state h

/-- A publication that is stored has an entry. -/
theorem exists_entry (hs : Accounted maxRetries steps s) (hr : s.Stores r) :
    ∃ p, s.state.publications.lookup r.key = some p := by
  obtain ⟨v, hv⟩ := Watched.exists_view hs.2.consistent hr
  obtain ⟨p, hp, -⟩ := view_eq_some_iff.mp hv
  exact ⟨p, hp⟩

/-- A publication stays stored as long as it has an entry. -/
theorem stores_iff_of_step (hs : Accounted maxRetries steps s)
    (h : lifetimes.step (some s) o = some (output, some s')) (hr : s.Stores r) :
    s'.Stores r ↔ ∃ p, s'.state.publications.lookup r.key = some p := by
  have hiff : s'.Stores r ↔ timers.occupied s'.state r.key = true :=
    Watch.stores_iff_inUse (W := objects) hs.2.consistent hr h
  rw [hiff, occupied_timers, Table.contains_eq_true_iff]

/-- No event fails. -/
theorem exists_after_of_step (hs : Accounted maxRetries steps s) {u : Option WatchedTable}
    (h : lifetimes.step (some s) o = some (output, u)) : ∃ s', u = some s' := by
  rcases Machine.ofFallible_step_some h with ⟨failure, hfail, -, -⟩ | ⟨calls, s', -, -, hnext⟩
  · obtain ⟨e, he⟩ := Watched.exists_error_of_watch hfail
    obtain ⟨calls, t, hresult, -⟩ := step_change hs.1.wellFormed he
    cases hresult
  · exact ⟨s', hnext⟩

/-- No run fails. -/
theorem exists_of_run {u : Option WatchedTable}
    (h : lifetimes.Run (some (initially maxRetries)) steps u) : ∃ s, u = some s := by
  refine h.snoc_induction (motive := fun _ u => ∃ s, u = some s) ⟨_, rfl⟩ ?_
  rintro pre t o output u hpre hstep ⟨s, rfl⟩
  exact exists_after_of_step (accounted_of_run hpre) hstep

/-- The timers of all publications wait once. -/
def AllSingle (t : RxInFlightPublications) : Prop :=
  ∀ i p, t.publications.lookup i = some p →
    (p.retryOnTimeout.expired + if p.retryOnTimeout.armed = true then 1 else 0) = 1

theorem AllSingle.update {t : RxInFlightPublications} {i : UInt16} {p : RxPublication}
    (h : AllSingle t)
    (hp : (p.retryOnTimeout.expired + if p.retryOnTimeout.armed = true then 1 else 0) = 1) :
    AllSingle (t.update i p) := by
  intro j q hq
  rw [RxInFlightPublications.publications_update, Table.lookup_insert] at hq
  split at hq
  · cases hq
    exact hp
  · exact h j q hq

theorem AllSingle.remove {t : RxInFlightPublications} {i : UInt16} (h : AllSingle t) :
    AllSingle (t.remove i) := by
  intro j q hq
  rw [RxInFlightPublications.publications_remove, Table.lookup_erase] at hq
  split at hq
  · cases hq
  · exact h j q hq

/-- Every event leaves each publication with one wait. -/
theorem AllSingle.step {t t' : RxInFlightPublications} {e : Event} {calls : List SenderCall}
    (hwell : WellFormed t) (h : AllSingle t) (hstep : RxTable.step t e = some (.ok (calls, t'))) :
    AllSingle t' := by
  cases he : e.isTimer with
  | false =>
      cases receives_of_step hwell he hstep with
      | ignored => exact h
      | stored p hfree => exact h.update rfl
      | completed i p hp => exact h.remove
  | true =>
      cases e with
      | publish | pubrel => cases he
      | timerElapses i =>
          obtain ⟨p, timer, hp, htimer, -, rfl⟩ := timerElapses_eq_some_iff.mp hstep
          obtain ⟨harmed, rfl⟩ := Timer.expire_eq_some_iff.mp htimer
          have hone := h i p hp
          rw [if_pos harmed] at hone
          exact h.update hone
      | timeout i =>
          obtain ⟨p, timer, hp, htimer, ⟨-, -, rfl⟩ | ⟨-, -, rfl⟩⟩ :=
            (timeout_eq_some_iff hwell).mp hstep
          · obtain ⟨hqueued, rfl⟩ := Timer.takeExpired_eq_some_iff.mp htimer
            have hone := h i p hp
            have hexpired : p.retryOnTimeout.expired = 1 := by omega
            refine h.update ?_
            simp [RxPublication.repeated, Timer.restart, Timer.expiresFromNow, Timer.asyncWait,
              hexpired]
          · exact h.remove

/-- Every run leaves each publication with one wait. -/
theorem allSingle_of_run (h : lifetimes.Run (some (initially maxRetries)) steps (some s)) :
    AllSingle s.state := by
  refine h.alive_invariant (fun _ => rfl) (fun _ => True) (fun _ t => AllSingle t.state) ?_ ?_
    (fun _ _ => trivial)
  · intro i p hp
    cases hp
  · intro pre t o output u hpre ht hstep _
    obtain ⟨calls, -, hmoves⟩ := Watched.moves_of_step hstep
    rcases hmoves.state with ⟨e, he, -⟩ | ⟨hsame, -⟩
    · exact ht.step (accounted_of_run hpre).1.wellFormed he
    · have hstate : u.state = t.state := congrArg Tracked.state hsame
      rw [hstate]
      exact ht

theorem singleWait_of_run (h : lifetimes.Run (some (initially maxRetries)) steps (some s)) :
    SingleWait s := by
  intro i p hp
  have hs := accounted_of_run h
  obtain ⟨hstate, hid⟩ := hs.1.wellFormed i p hp
  have hoccupied : timers.occupied s.state i = true := by
    rw [occupied_timers]
    exact (Table.contains_eq_true_iff _ _).mpr ⟨p, hp⟩
  obtain ⟨n, hr⟩ := hs.2.consistent.exists_stores hoccupied
  have hview : timers.view s.state i = some p.view := view_eq_some_iff.mpr ⟨p, hp, rfl⟩
  have hcount : s.queue.count ⟨i, n⟩ = p.retryOnTimeout.expired := hs.2.queued hr hview
  refine ⟨hid, hstate, n, hr, ?_⟩
  rw [hcount]
  exact allSingle_of_run h i p hp

/-- A PUBREC is sent for a publication that is stored afterwards. -/
theorem exists_stored_of_pubrec (hs : Accounted maxRetries steps s)
    (h : lifetimes.step (some s) o = some (output, some s')) {i : UInt16}
    (hsent : SendsIn ⟨some s, o, output, some s'⟩ (.publishAck (.pubrec i))) :
    ∃ n, s'.Stores ⟨i, n⟩ := by
  have hs' := hs.step (timers_lawful maxRetries) h
  suffices hoccupied : timers.occupied s'.state i = true from
    hs'.2.consistent.exists_stores hoccupied
  have hstored {t : RxInFlightPublications} {p : RxPublication} :
      timers.occupied (t.update i p) i = true := by
    simp [Table.contains]
  obtain ⟨calls, houtput, hmem⟩ := hsent
  obtain ⟨calls', rfl, hmoves⟩ := Watched.moves_of_step h
  cases houtput
  cases hmoves with
  | event e calls t hkind ht =>
      cases receives_of_step hs.1.wellFormed hkind ht with
      | ignored _ _ hsent => exact absurd hmem (hsent i).1
      | stored p hfree =>
          have hid : i = p.packetIdentifier := by simpa using hmem
          subst hid
          exact hstored
      | completed j p hp => simp at hmem
  | elapses r' calls t hr' ht =>
      obtain ⟨p, timer, hp, -, rfl, -⟩ := timerElapses_eq_some_iff.mp ht
      cases hmem
  | handler r' calls t hqueued hr' ht =>
      obtain ⟨p, timer, hp, -, ⟨-, rfl, rfl⟩ | ⟨-, rfl, -⟩⟩ :=
        (timeout_eq_some_iff hs.1.wellFormed).mp ht
      · have hid : i = p.publishId := by simpa [RxPublication.pubrec] using hmem
        rw [(hs.1.wellFormed _ _ hp).2] at hid
        subst hid
        exact hstored
      · cases hmem
  | late => cases hmem

/-- A publication that is completed is released. -/
theorem not_stores_of_completes (hs : Accounted maxRetries steps s)
    (h : lifetimes.step (some s) o = some (output, some s')) (hr : s.Stores r)
    (hsent : SendsIn ⟨some s, o, output, some s'⟩ (.publishAck (.pubcomp r.key))) :
    ¬ s'.Stores r := by
  obtain ⟨calls, houtput, hmem⟩ := hsent
  obtain ⟨calls', rfl, hmoves⟩ := Watched.moves_of_step h
  cases houtput
  cases hmoves with
  | event e calls t hkind ht =>
      cases receives_of_step hs.1.wellFormed hkind ht with
      | ignored _ _ hsent => exact absurd hmem (hsent r.key).2
      | stored p hfree => simp at hmem
      | completed i p hp =>
          have hid : r.key = i := by simpa using hmem
          have hnone : (s.state.remove i).publications.lookup r.key = none := by
            rw [hid, RxInFlightPublications.publications_remove, Table.lookup_erase_self]
          intro hr'
          obtain ⟨q, hq⟩ := (stores_iff_of_step hs h hr).mp hr'
          cases hnone.symm.trans hq
  | elapses r' calls t hr' ht =>
      obtain ⟨p, timer, hp, -, rfl, -⟩ := timerElapses_eq_some_iff.mp ht
      cases hmem
  | handler r' calls t hqueued hr' ht =>
      obtain ⟨p, timer, hp, -, ⟨-, rfl, -⟩ | ⟨-, rfl, -⟩⟩ :=
        (timeout_eq_some_iff hs.1.wellFormed).mp ht
      · simp [RxPublication.pubrec] at hmem
      · cases hmem
  | late => cases hmem

/-- The steps of a run reach states. -/
theorem exists_states_of_run {u : Option WatchedTable}
    (h : lifetimes.Run (some (initially maxRetries)) steps u) {pre post : List LifetimeStep}
    {x : LifetimeStep} (hsplit : steps = pre ++ x :: post) :
    ∃ t t', x.before = some t ∧ x.after = some t' ∧ Accounted maxRetries pre t ∧
      lifetimes.step (some t) x.event = some (x.output, some t') ∧
      lifetimes.Run (some t') post u := by
  obtain ⟨s, rfl⟩ := exists_of_run h
  obtain ⟨t, t', hx, hpre, hstep, hpost⟩ := h.alive_split (fun _ => rfl) hsplit
  exact ⟨t, t', by rw [hx], by rw [hx], accounted_of_run hpre, hstep, hpost⟩

/-- What holds of the table in every run. -/
structure Receiver (steps : List LifetimeStep) (u : Option WatchedTable) : Prop where
  /-- No assertion fails, and every publication has exactly one pending wait. -/
  waits : ∃ s, u = some s ∧ SingleWait s
  /-- No publication is released twice. -/
  releases : ∀ r, steps.countP (objects.removes r) ≤ 1
  /-- A PUBREC that is sent after the PUBCOMP of a publication belongs to another one, which has
  been stored under its identifier since. -/
  silent : ∀ r pre x post, steps = pre ++ x :: post → Completes r x →
    ∀ y ∈ post, SendsIn y (.publishAck (.pubrec r.key)) →
      ∃ s r', y.after = some s ∧ s.Stores r' ∧ r'.key = r.key ∧ r' ≠ r

/-- What holds of the table in every run, whatever the client sends and whenever handlers run. -/
theorem receiver_of_run {u : Option WatchedTable}
    (h : lifetimes.Run (some (initially maxRetries)) steps u) : Receiver steps u := by
  obtain ⟨s, rfl⟩ := exists_of_run h
  have hstart : (objects.view (initially maxRetries)).Consistent timers.occupied :=
    Tracked.consistent_start fun k => rfl
  refine ⟨⟨s, rfl, singleWait_of_run h⟩,
    fun r => Watch.countP_removes_le_one (W := objects) hstart h r, ?_⟩
  intro r pre x post hsplit hcompletes y hy hpubrec
  obtain ⟨t, t', hbefore, hafter, hacc, hstep, hpost⟩ := exists_states_of_run h hsplit
  obtain ⟨hstored, hpubcomp⟩ := hcompletes
  -- the publication is removed by the step
  have hr : t.Stores r := by
    rw [hbefore] at hstored
    exact Watch.stored_some.mp hstored
  have hnot : ¬ t'.Stores r := not_stores_of_completes hacc hstep hr hpubcomp
  have hremoves : objects.removes r x = true := by
    have hx : x = ⟨some t, x.event, x.output, some t'⟩ := by
      rw [← hbefore, ← hafter]
    rw [hx]
    exact Watch.removes_some.mpr ⟨hr, hnot⟩
  -- a PUBREC that is sent later belongs to a publication that is stored
  obtain ⟨mid, rest, hmid⟩ := List.append_of_mem hy
  have hsplit' : steps = (pre ++ x :: mid) ++ y :: rest := by
    rw [hsplit, hmid, List.append_assoc, List.cons_append]
  obtain ⟨w, w', -, hafter', hacc', hstep', hrest⟩ := exists_states_of_run h hsplit'
  obtain ⟨n, hr'⟩ := exists_stored_of_pubrec hacc' hstep' hpubrec
  refine ⟨w', ⟨r.key, n⟩, hafter', hr', rfl, ?_⟩
  intro hsame
  have hrun : lifetimes.Run (some (initially maxRetries)) (pre ++ x :: (mid ++ [y])) y.after := by
    obtain ⟨hpre', hstep'', -⟩ := h.split hsplit'
    have hprefix := hpre'.append (Machine.Run.single hstep'')
    rw [List.append_assoc, List.cons_append] at hprefix
    exact hprefix
  have hgone := (Watch.not_stored_of_removes (W := objects) hstart hrun rfl hremoves).1
  rw [hafter', Watch.stored_some_eq_false, ← hsame] at hgone
  exact hgone hr'

/-- A publication can be received. -/
theorem exists_run_received (maxRetries : Nat) {p : Publish} (hqos : p.qos = .exactlyOnce) :
    ∃ s, lifetimes.Run (some (initially maxRetries)) [⟨some (initially maxRetries),
        .event (.publish true p), .ok [.send (.publishAck (.pubrec p.packetIdentifier))],
        some s⟩] (some s) ∧
      s.Stores ⟨p.packetIdentifier, 0⟩ ∧ s.state.publications.lookup p.packetIdentifier =
        some ((RxInFlightPublications.create maxRetries).received p) := by
  let t := RxInFlightPublications.create maxRetries
  have hfree : t.publications.lookup p.packetIdentifier = none := rfl
  have hstep : step t (.publish true p) =
      some (.ok ([.send (.publishAck (.pubrec p.packetIdentifier))],
        t.update p.packetIdentifier (t.received p))) := by
    simp only [step, RxInFlightPublications.clientSentPublish_exactlyOnce hqos hfree, Except.map]
  have hs : Accounted maxRetries [] (initially maxRetries) := accounted_of_run (Machine.Run.nil _)
  refine ⟨_, Machine.Run.single (Watched.step_event rfl hstep), ?_,
    Table.lookup_insert_self _ _ _⟩
  refine Tracked.stores_new (k := p.packetIdentifier) hs.2.consistent rfl ?_
  simp [Table.contains]

end Runs

/-- A publication is received, its PUBREC is sent once more, and it is released while the next
handler of its timer is queued.  That handler runs when another publication is stored under the
identifier. -/
def lateHandlerEvents : List Incident :=
  [.event (.publish true qos2Packet), .elapses 0, .handler ⟨0, 0⟩, .elapses 0,
    .event (.pubrel true 0), .event (.publish true qos2Packet), .handler ⟨0, 0⟩]

/-- What the table sends in answer. -/
def lateHandlerOutputs : List (Except Fault (List SenderCall)) :=
  [.ok [.send (.publishAck (.pubrec 0))], .ok [], .ok [.send (.publishAck (.pubrec 0))], .ok [],
    .ok [.send (.publishAck (.pubcomp 0))], .ok [.send (.publishAck (.pubrec 0))], .ok []]

theorem receiver_sample : ∃ steps u, lifetimes.Run (some (initially 3)) steps u ∧
    steps.map Step.event = lateHandlerEvents ∧ steps.map Step.output = lateHandlerOutputs ∧
      Receiver steps u := by
  obtain ⟨steps, u, hexec, houtputs⟩ : ∃ steps u,
      lifetimes.exec (some (initially 3)) lateHandlerEvents = some (steps, u) ∧
        steps.map Step.output = lateHandlerOutputs :=
    ⟨_, _, rfl, rfl⟩
  have hrun := Machine.run_exec hexec
  exact ⟨steps, u, hrun, Machine.events_of_exec hexec, houtputs, receiver_of_run hrun⟩

end RxTable

end Dispatch
end WallyIo
