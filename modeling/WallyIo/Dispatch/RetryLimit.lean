import WallyIo.Dispatch.RxLifetimes
import WallyIo.Dispatch.TxLifetimes

/-!
# The limit of retries

A publication counts the expirations of its timer with 16 bits, and compares the counter with
a configured limit that may be larger.  As long as the limit is less than the largest counter,
a publication that is never completed is given up after one expiration more than there are
retries.  Otherwise the counter wraps around before it exceeds the limit, and the publication is
never given up.

Main results:

- Theorem {lit}`retriesBounded_iff`: for which limits the retries of publications are bounded.
- Theorem {lit}`not_retriesBounded`: for the largest counter they are not.
-/

namespace WallyIo
namespace Dispatch

open Protocol Library

/-! ## Outgoing publications -/

namespace TxTable

/-- A response of the client completes a publication. -/
def Completed (r : Incarnation UInt16) (x : LifetimeStep) : Prop :=
  objects.removes r x = true ∧ ∃ ack, x.event = .event (.response true ack)

/-- The handler of its timer leaves a publication terminally failed and releases it from its
table, where its identifier is free again. -/
def Fails (r : Incarnation UInt16) (x : LifetimeStep) : Prop :=
  ∃ s s' entry timer reaction, x.before = some s ∧ x.event = .handler r ∧ x.after = some s' ∧
    s.Stores r ∧ s.state.publications.lookup r.key = some entry ∧
    entry.retryOnTimeout.takeExpired = some timer ∧
    (entry.withTimer timer).ackTimeoutExpired = .ok reaction ∧
    reaction.after.terminallyFailed = true ∧ reaction.released = true ∧
    s'.state.publications.lookup r.key = none

/-- A publication that is not completed fails when its timer has expired once more than there
are retries. -/
def RetriesBounded (maxRetries : Nat) (level : QoS) : Prop :=
  ∀ pre s r entry rest s', lifetimes.Run (some (initially maxRetries)) pre (some s) →
    s.Stores r → s.state.publications.lookup r.key = some entry → entry.level = level →
      lifetimes.Run (some s) rest (some s') → (∀ x ∈ rest, ¬ Completed r x) →
        maxRetries + 1 ≤ Watched.handled r (pre ++ rest) →
          (∃ x ∈ rest, Fails r x) ∧ ¬ s'.Stores r

section Limit

variable {maxRetries : Nat} {steps : List LifetimeStep} {s s' : WatchedTable} {o : Incident}
  {output : Except Fault (List SenderCall)} {r : Incarnation UInt16} {level : QoS}

/-- A publication leaves its table when a response arrives, or when its handler does not retry
any more. -/
theorem removed_cases (hs : Accounted maxRetries steps s)
    (h : lifetimes.step (some s) o = some (output, some s')) (hr : s.Stores r)
    (hnot : ¬ s'.Stores r) :
    ∃ entry, s.state.publications.lookup r.key = some entry ∧
      s'.state.publications.lookup r.key = none ∧
      ((∃ ack, o = .event (.response true ack)) ∨
        o = .handler r ∧ entry.mayRetry = false ∧
          ∃ timer, entry.retryOnTimeout.takeExpired = some timer) := by
  obtain ⟨entry, hentry⟩ := exists_entry hs hr
  have hnone := lookup_eq_none_of_step hs h hr hnot
  obtain ⟨calls, -, hlives⟩ := lives_of_step hs h hr hentry
  refine ⟨entry, hentry, hnone, ?_⟩
  rw [hnone] at hlives
  generalize hresult : none = result at hlives
  cases hlives with
  | untouched | elapsed | resent => cases hresult
  | answered ack reaction hack hid hreaction => exact Or.inl ⟨ack, rfl⟩
  | failed timer htimer hretry => exact Or.inr ⟨rfl, hretry, timer, htimer⟩

/-- Only a response of the client completes a publication. -/
theorem completed_of_event (hs : Accounted maxRetries steps s) {e : Event}
    (h : lifetimes.step (some s) (.event e) = some (output, some s')) (hr : s.Stores r)
    (hnot : ¬ s'.Stores r) : Completed r ⟨some s, .event e, output, some s'⟩ := by
  refine ⟨Watch.removes_some.mpr ⟨hr, hnot⟩, ?_⟩
  obtain ⟨entry, -, -, hresponse | ⟨hhandler, -⟩⟩ := removed_cases hs h hr hnot
  · exact hresponse
  · cases hhandler

/-- A publication that its own handler removes has failed. -/
theorem fails_of_handler (hs : Accounted maxRetries steps s)
    (h : lifetimes.step (some s) (.handler r) = some (output, some s')) (hr : s.Stores r)
    (hnot : ¬ s'.Stores r) : Fails r ⟨some s, .handler r, output, some s'⟩ := by
  obtain ⟨entry, hentry, hnone, ⟨ack, hack⟩ | ⟨-, hretry, timer, htimer⟩⟩ :=
    removed_cases hs h hr hnot
  · cases hack
  · have hreaction : (entry.withTimer timer).ackTimeoutExpired =
        .ok ⟨[], true, entry.givenUp timer⟩ := by
      rw [TxEntry.ackTimeoutExpired_of_waiting (hs.1.wellFormed _ _ hentry).1,
        if_neg (by simp [hretry])]
    exact ⟨s, s', entry, timer, _, rfl, rfl, rfl, hr, hentry, htimer, hreaction,
      TxEntry.terminallyFailed_givenUp, rfl, hnone⟩

theorem retriesBounded_of_lt (hmax : maxRetries < 65535) (level : QoS) :
    RetriesBounded maxRetries level := by
  intro pre s r entry rest s' hpre hr hentry hlevel hrest hcompleted hmany
  obtain ⟨hnot, before, t, output, t', hmem, hacc, hstored, hgone, hstep⟩ :=
    Watched.exists_given_up (timers_lawful maxRetries) (by omega) (accounted_of_run hpre) hr hrest
      (by
        intro before t e output t' hmem hacc hstep hstored
        by_contra hgone
        exact hcompleted _ hmem (completed_of_event hacc hstep hstored hgone))
      hmany
  exact ⟨⟨_, hmem, fails_of_handler hacc hstep hstored hgone⟩, hnot⟩

/-- A counter of 16 bits never exceeds a larger limit. -/
theorem not_retriesBounded_of_le (hmax : 65535 ≤ maxRetries)
    (hlevel : level = .atLeastOnce ∨ level = .exactlyOnce) : ¬ RetriesBounded maxRetries level := by
  intro hbounded
  obtain ⟨outgoing, s, -, hrun, hr, hentry, -⟩ :=
    exists_run_started maxRetries samplePublish _ (by decide) hlevel
  have hview : timers.view s.state 1 = some ⟨true, 0, 0⟩ :=
    view_eq_some_iff.mpr ⟨_, hentry, view_startedEntry maxRetries level outgoing⟩
  obtain ⟨rest, s', hrest, hevents, hcount, hr'⟩ :=
    Watched.exists_run_handled (timers_lawful maxRetries) (by omega) (by omega)
      (accounted_of_run hrun) hr hview rfl (maxRetries + 1)
  have hentryLevel : (TxInFlightPublications.startedEntry maxRetries level outgoing).level =
      level := by
    rcases hlevel with rfl | rfl <;> rfl
  refine (hbounded _ s ⟨1, 0⟩ _ rest s' hrun hr hentry hentryLevel hrest ?_ ?_).2 hr'
  · rintro x hx ⟨-, ack, hack⟩
    rcases hevents x hx with h | h
    · cases hack.symm.trans h
    · cases hack.symm.trans h
  · rw [Watched.handled_append, hcount]
    omega

theorem retriesBounded_iff_lt (hlevel : level = .atLeastOnce ∨ level = .exactlyOnce) :
    RetriesBounded maxRetries level ↔ maxRetries < 65535 := by
  constructor
  · intro hbounded
    by_contra hmax
    exact not_retriesBounded_of_le (by omega) hlevel hbounded
  · intro hmax
    exact retriesBounded_of_lt hmax level

end Limit

end TxTable

/-! ## Incoming publications -/

namespace RxTable

/-- A PUBREL of the client completes a publication. -/
def Completed (r : Incarnation UInt16) (x : LifetimeStep) : Prop :=
  objects.removes r x = true ∧ ∃ i, x.event = .event (.pubrel true i)

/-- The handler of its timer leaves a publication terminally failed and releases it from its
table, where its identifier is free again. -/
def Fails (r : Incarnation UInt16) (x : LifetimeStep) : Prop :=
  ∃ s s' p timer reaction, x.before = some s ∧ x.event = .handler r ∧ x.after = some s' ∧
    s.Stores r ∧ s.state.publications.lookup r.key = some p ∧
    p.retryOnTimeout.takeExpired = some timer ∧
    ({ p with retryOnTimeout := timer } : RxPublication).pubrelTimeoutExpired = .ok reaction ∧
    reaction.after.state = .terminallyFailed ∧ reaction.released = true ∧
    s'.state.publications.lookup r.key = none

/-- A publication that is not completed fails when its timer has expired once more than there
are retries. -/
def RetriesBounded (maxRetries : Nat) : Prop :=
  ∀ pre s r rest s', lifetimes.Run (some (initially maxRetries)) pre (some s) → s.Stores r →
    lifetimes.Run (some s) rest (some s') → (∀ x ∈ rest, ¬ Completed r x) →
      maxRetries + 1 ≤ Watched.handled r (pre ++ rest) →
        (∃ x ∈ rest, Fails r x) ∧ ¬ s'.Stores r

section Limit

variable {maxRetries : Nat} {steps : List LifetimeStep} {s s' : WatchedTable}
  {output : Except Fault (List SenderCall)} {r : Incarnation UInt16}

/-- Only a PUBREL of the client completes a publication. -/
theorem completed_of_event (hs : Accounted maxRetries steps s) {e : Event}
    (h : lifetimes.step (some s) (.event e) = some (output, some s')) (hr : s.Stores r)
    (hnot : ¬ s'.Stores r) : Completed r ⟨some s, .event e, output, some s'⟩ := by
  refine ⟨Watch.removes_some.mpr ⟨hr, hnot⟩, ?_⟩
  obtain ⟨p, hp⟩ := exists_entry hs hr
  have hstays := (stores_iff_of_step hs h hr).mpr
  obtain ⟨calls, -, hmoves⟩ := Watched.moves_of_step h
  cases hmoves with
  | event e calls t hkind ht =>
      cases receives_of_step hs.1.wellFormed hkind ht with
      | ignored => exact absurd (hstays ⟨p, hp⟩) hnot
      | completed i q hq => exact ⟨i, rfl⟩
      | stored q hfree =>
          have hne : r.key ≠ q.packetIdentifier := by
            intro hkey
            rw [hkey, hfree] at hp
            cases hp
          have hkept : (s.state.update q.packetIdentifier
              (s.state.received q)).publications.lookup r.key = some p := by
            rw [RxInFlightPublications.publications_update, Table.lookup_insert_of_ne _ _ hne, hp]
          exact absurd (hstays ⟨p, hkept⟩) hnot

/-- A publication that its own handler removes has failed. -/
theorem fails_of_handler (hs : Accounted maxRetries steps s)
    (h : lifetimes.step (some s) (.handler r) = some (output, some s')) (hr : s.Stores r)
    (hnot : ¬ s'.Stores r) : Fails r ⟨some s, .handler r, output, some s'⟩ := by
  have hstays := (stores_iff_of_step hs h hr).mpr
  obtain ⟨calls, -, hmoves⟩ := Watched.moves_of_step h
  cases hmoves with
  | late r hqueued hgone => exact absurd hr hgone
  | handler r calls t hqueued hr ht =>
      obtain ⟨p, timer, hp, htimer, ⟨-, -, rfl⟩ | ⟨hretry, -, rfl⟩⟩ :=
        (timeout_eq_some_iff hs.1.wellFormed).mp ht
      · exact absurd (hstays ⟨_, Table.lookup_insert_self _ _ _⟩) hnot
      · have hreaction : ({ p with retryOnTimeout := timer } : RxPublication).pubrelTimeoutExpired =
            .ok ⟨[], true, p.givenUp timer⟩ := by
          rw [RxPublication.pubrelTimeoutExpired_of_waiting (hs.1.wellFormed _ _ hp).1,
            if_neg (by simp [hretry])]
        exact ⟨s, _, p, timer, _, rfl, rfl, rfl, hr, hp, htimer, hreaction, rfl, rfl,
          Table.lookup_erase_self _ _⟩

theorem retriesBounded_of_lt (hmax : maxRetries < 65535) : RetriesBounded maxRetries := by
  intro pre s r rest s' hpre hr hrest hcompleted hmany
  obtain ⟨hnot, before, t, output, t', hmem, hacc, hstored, hgone, hstep⟩ :=
    Watched.exists_given_up (timers_lawful maxRetries) (by omega) (accounted_of_run hpre) hr hrest
      (by
        intro before t e output t' hmem hacc hstep hstored
        by_contra hgone
        exact hcompleted _ hmem (completed_of_event hacc hstep hstored hgone))
      hmany
  exact ⟨⟨_, hmem, fails_of_handler hacc hstep hstored hgone⟩, hnot⟩

/-- A counter of 16 bits never exceeds a larger limit. -/
theorem not_retriesBounded_of_le (hmax : 65535 ≤ maxRetries) : ¬ RetriesBounded maxRetries := by
  intro hbounded
  obtain ⟨s, hrun, hr, hp⟩ := exists_run_received maxRetries (p := qos2Packet) rfl
  have hview : timers.view s.state qos2Packet.packetIdentifier = some ⟨true, 0, 0⟩ :=
    view_eq_some_iff.mpr ⟨_, hp, rfl⟩
  obtain ⟨rest, s', hrest, hevents, hcount, hr'⟩ :=
    Watched.exists_run_handled (timers_lawful maxRetries) (by omega) (by omega)
      (accounted_of_run hrun) hr hview rfl (maxRetries + 1)
  refine (hbounded _ s ⟨qos2Packet.packetIdentifier, 0⟩ rest s' hrun hr hrest ?_ ?_).2 hr'
  · rintro x hx ⟨-, i, hi⟩
    rcases hevents x hx with h | h
    · cases hi.symm.trans h
    · cases hi.symm.trans h
  · rw [Watched.handled_append, hcount]
    omega

theorem retriesBounded_iff_lt : RetriesBounded maxRetries ↔ maxRetries < 65535 := by
  constructor
  · intro hbounded
    by_contra hmax
    exact not_retriesBounded_of_le (by omega) hbounded
  · exact retriesBounded_of_lt

end Limit

end RxTable

/-! ## All publications -/

/-- The retries of publications are bounded exactly if the limit is less than the largest
counter. -/
theorem retriesBounded_iff (maxRetries : Nat) :
    (TxTable.RetriesBounded maxRetries .atLeastOnce ↔ maxRetries < 65535) ∧
    (TxTable.RetriesBounded maxRetries .exactlyOnce ↔ maxRetries < 65535) ∧
    (RxTable.RetriesBounded maxRetries ↔ maxRetries < 65535) :=
  ⟨TxTable.retriesBounded_iff_lt (Or.inl rfl), TxTable.retriesBounded_iff_lt (Or.inr rfl),
    RxTable.retriesBounded_iff_lt⟩

/-- With the largest counter as the limit no retries are bounded. -/
theorem not_retriesBounded : ¬ TxTable.RetriesBounded 65535 .atLeastOnce ∧
    ¬ TxTable.RetriesBounded 65535 .exactlyOnce ∧ ¬ RxTable.RetriesBounded 65535 :=
  ⟨TxTable.not_retriesBounded_of_le (Nat.le_refl _) (Or.inl rfl),
    TxTable.not_retriesBounded_of_le (Nat.le_refl _) (Or.inr rfl),
    RxTable.not_retriesBounded_of_le (Nat.le_refl _)⟩

end Dispatch
end WallyIo
