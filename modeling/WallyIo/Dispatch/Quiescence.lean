import WallyIo.Dispatch.PendingTimers
import WallyIo.Dispatch.RxLifetimes
import WallyIo.Library.Quiescence
import Mathlib.Data.FinEnum

/-!
# Clients that do not answer any more

A client that does not answer is reminded of its publications, each of them as often as is
configured.  Then the tables of its session are empty: no publication is forgotten, and no timer
runs forever, in whatever order the timers of different publications expire and late handlers
run.

Main results:

- Theorem {lit}`retransmission_ends`: for the publications that are sent to a client.
- Theorem {lit}`reminding_ends`: for those that have been received from it.
-/

namespace WallyIo
namespace Dispatch

open Protocol Library

/-! ## Publications that are sent -/

namespace TxTable

section Timers

variable {t : TxInFlightPublications} {i : UInt16} {maxRetries : Nat}
  {answer : Except Fault (List SenderCall × TxInFlightPublications)}

/-- A timer that elapses makes no calls. -/
theorem exists_of_timerElapses (h : step t (.timerElapses i) = some answer) :
    ∃ t', answer = .ok ([], t') := by
  simp only [step, Option.map_eq_some_iff] at h
  obtain ⟨t', -, rfl⟩ := h
  exact ⟨t', rfl⟩

/-- A handler makes its publication send one packet, or give up. -/
theorem exists_of_timeout (hwell : WellFormed t) (h : step t (.timeout i) = some answer) :
    ∃ calls t', answer = .ok (calls, t') ∧ calls.length ≤ (timers.occupied t' i).toNat := by
  have hresult : ∃ calls t', answer = .ok (calls, t') := by
    simp only [step, TxInFlightPublications.timeout] at h
    cases hentry : t.publications.lookup i with
    | none => simp [hentry] at h
    | some entry =>
        simp only [hentry, Option.map_eq_some_iff,
          TxEntry.ackTimeoutExpired_of_waiting (hwell i entry hentry).1] at h
        obtain ⟨timer, -, rfl⟩ := h
        split
        · exact ⟨_, _, TxInFlightPublications.settle_kept _ _ _⟩
        · exact ⟨_, _, TxInFlightPublications.settle_released _ _ _⟩
  obtain ⟨calls, t', rfl⟩ := hresult
  refine ⟨calls, t', rfl, ?_⟩
  obtain ⟨entry, timer, -, -, ⟨-, rfl, rfl⟩ | ⟨-, rfl, rfl⟩⟩ :=
    (timeout_eq_some_iff hwell).mp h
  · rw [Timers.occupied, view_update_self]
    exact Nat.le_refl _
  · exact Nat.zero_le _

theorem timers_thrifty (maxRetries : Nat) : timers.Thrifty step (Configured maxRetries) where
  elapses _ h := exists_of_timerElapses h
  timeout ht h := exists_of_timeout ht.wellFormed h

end Timers

section Runs

variable {maxRetries : Nat} {steps rest : List LifetimeStep} {s : WatchedTable}
  {u : Option WatchedTable}

/-- What a timer does is no answer of the client, and publishes nothing new. -/
theorem regular_of_timer {x : LifetimeStep} (h : x.event.isTimer = true) : Regular x := by
  constructor
  · intro e hevent
    rw [hevent] at h
    cases h
  · rintro ⟨s, ack, entry, -, hevent, -⟩
    rw [hevent] at h
    cases h

/-- Nothing is stored in a table at rest in which all timers are pending. -/
theorem publications_of_atRest (hpending : AllPending s) (hrest : Watched.AtRest timers s) :
    ∀ i, s.state.publications.lookup i = none := by
  intro i
  rw [Option.eq_none_iff_forall_not_mem]
  intro entry hentry
  obtain ⟨hidle, hqueued⟩ := hrest.2 i entry.view (view_eq_some_iff.mpr ⟨entry, hentry, rfl⟩)
  rcases hpending i entry hentry with harmed | hexpired
  · cases hidle.symm.trans harmed
  · exact absurd hqueued (Nat.ne_of_gt hexpired)

/-- A client that does not answer any more is sent each of its publications as often as is
configured, and then there are none left. -/
theorem retransmission_ends (hmax : maxRetries < 65535)
    (h : lifetimes.Run (some (initially maxRetries)) steps (some s))
    (hsteps : ∀ x ∈ steps, Regular x) (hrest : lifetimes.Run (some s) rest u)
    (htimers : ∀ x ∈ rest, x.event.isTimer = true) :
    ∃ s', u = some s' ∧ Watched.RunsDown timers step maxRetries s rest s' ∧ Encoded rest ∧
      (Watched.AtRest timers s' → ∀ i, s'.state.publications.lookup i = none) := by
  obtain ⟨s', rfl, hdown⟩ := Watched.runsDown_of_run (timers_lawful maxRetries)
    (timers_thrifty maxRetries) (by omega) (accounted_of_run h) hrest htimers
  have hall : ∀ x ∈ steps ++ rest, Regular x := by
    intro x hx
    rcases List.mem_append.mp hx with hx | hx
    · exact hsteps x hx
    · exact regular_of_timer (htimers x hx)
  have hencoded := encoded_of_run (h.append hrest) fun x hx => (hall x hx).fits
  have hpending := allPending_of_run (h.append hrest) fun x hx => (hall x hx).answers
  exact ⟨s', rfl, hdown, fun x hx => hencoded x (List.mem_append_right _ hx),
    publications_of_atRest hpending⟩

end Runs

/-- The timer of a first publication elapses, and its handler runs. -/
theorem retransmission_ends_sample : ∃ steps s rest s',
    lifetimes.Run (some (initially 3)) steps (some s) ∧ s.Stores ⟨1, 0⟩ ∧
      lifetimes.Run (some s) rest (some s') ∧ ¬ s'.Stores ⟨1, 0⟩ ∧
      Watched.RunsDown timers step 3 s rest s' ∧ Encoded rest ∧
        (Watched.AtRest timers s' → ∀ i, s'.state.publications.lookup i = none) := by
  obtain ⟨outgoing, s, -, hrun, hr, hentry, -⟩ :=
    exists_run_started 3 samplePublish .exactlyOnce (by decide) (by decide)
  have hview : timers.view s.state 1 = some ⟨true, 0, 0⟩ :=
    view_eq_some_iff.mpr ⟨_, hentry, view_startedEntry 3 .exactlyOnce outgoing⟩
  obtain ⟨rest, s', hrest, hevents, hnot⟩ := Watched.exists_run_released (timers_lawful 3)
    (by decide) (accounted_of_run hrun) hr hview (Or.inl rfl)
  have htimers : ∀ x ∈ rest, x.event.isTimer = true := by
    intro x hx
    rcases hevents x hx with hevent | hevent <;> rw [hevent] <;> rfl
  have hsteps : ∀ x ∈ [(⟨some (initially 3), .event (.publish true samplePublish .exactlyOnce),
      .ok [.send (.publish outgoing)], some s⟩ : LifetimeStep)], Regular x := by
    intro x hx
    rw [List.mem_singleton.mp hx]
    exact regular_start 3 _ _
  obtain ⟨_, hsame, hdown, hencoded, hempty⟩ :=
    retransmission_ends (by decide) hrun hsteps hrest htimers
  cases hsame
  exact ⟨_, s, rest, s', hrun, hr, hrest, hnot, hdown, hencoded, hempty⟩

end TxTable

/-! ## Publications that are received -/

namespace RxTable

section Timers

variable {t : RxInFlightPublications} {i : UInt16}
  {answer : Except Fault (List SenderCall × RxInFlightPublications)}

/-- A timer that elapses makes no calls. -/
theorem exists_of_timerElapses (hwell : WellFormed t)
    (h : step t (.timerElapses i) = some answer) : ∃ t', answer = .ok ([], t') := by
  obtain ⟨calls, t', rfl, -⟩ := step_change hwell h
  obtain ⟨p, timer, -, -, rfl, -⟩ := timerElapses_eq_some_iff.mp h
  exact ⟨t', rfl⟩

/-- A handler makes its publication send one packet, or give up. -/
theorem exists_of_timeout (hwell : WellFormed t) (h : step t (.timeout i) = some answer) :
    ∃ calls t', answer = .ok (calls, t') ∧ calls.length ≤ (timers.occupied t' i).toNat := by
  obtain ⟨calls, t', rfl, -⟩ := step_change hwell h
  refine ⟨calls, t', rfl, ?_⟩
  obtain ⟨p, timer, -, -, ⟨-, rfl, rfl⟩ | ⟨-, rfl, rfl⟩⟩ := (timeout_eq_some_iff hwell).mp h
  · rw [Timers.occupied, view_update_self]
    exact Nat.le_refl _
  · exact Nat.zero_le _

theorem timers_thrifty (maxRetries : Nat) : timers.Thrifty step (Configured maxRetries) where
  elapses ht h := exists_of_timerElapses ht.wellFormed h
  timeout ht h := exists_of_timeout ht.wellFormed h

end Timers

variable {maxRetries : Nat} {steps rest : List LifetimeStep} {s : WatchedTable}
  {u : Option WatchedTable}

/-- A table at rest stores nothing if every publication waits. -/
theorem publications_of_atRest (hsingle : AllSingle s.state) (hrest : Watched.AtRest timers s) :
    ∀ i, s.state.publications.lookup i = none := by
  intro i
  rw [Option.eq_none_iff_forall_not_mem]
  intro p hp
  have hone := hsingle i p hp
  obtain ⟨hidle, hqueued⟩ := hrest.2 i p.view (view_eq_some_iff.mpr ⟨p, hp, rfl⟩)
  have hunarmed : p.retryOnTimeout.armed = false := hidle
  have hexpired : p.retryOnTimeout.expired = 0 := hqueued
  rw [hunarmed, hexpired] at hone
  cases hone

/-- A client that does not send its PUBREL is reminded by a PUBREC as often as is configured, and
then nothing is left of what it has published. -/
theorem reminding_ends (hmax : maxRetries < 65535)
    (h : lifetimes.Run (some (initially maxRetries)) steps (some s))
    (hrest : lifetimes.Run (some s) rest u) (htimers : ∀ x ∈ rest, x.event.isTimer = true) :
    ∃ s', u = some s' ∧ Watched.RunsDown timers step maxRetries s rest s' ∧
      (Watched.AtRest timers s' → ∀ i, s'.state.publications.lookup i = none) := by
  obtain ⟨s', rfl, hdown⟩ := Watched.runsDown_of_run (timers_lawful maxRetries)
    (timers_thrifty maxRetries) (by omega) (accounted_of_run h) hrest htimers
  exact ⟨s', rfl, hdown, publications_of_atRest (allSingle_of_run (h.append hrest))⟩

/-- The timer of a first publication elapses, and its handler runs. -/
theorem reminding_ends_sample : ∃ steps s rest s',
    lifetimes.Run (some (initially 3)) steps (some s) ∧
      s.Stores ⟨qos2Packet.packetIdentifier, 0⟩ ∧
      lifetimes.Run (some s) rest (some s') ∧ ¬ s'.Stores ⟨qos2Packet.packetIdentifier, 0⟩ ∧
      Watched.RunsDown timers step 3 s rest s' ∧
        (Watched.AtRest timers s' → ∀ i, s'.state.publications.lookup i = none) := by
  obtain ⟨s, hrun, hr, hp⟩ := exists_run_received 3 (p := qos2Packet) rfl
  have hview : timers.view s.state qos2Packet.packetIdentifier = some ⟨true, 0, 0⟩ :=
    view_eq_some_iff.mpr ⟨_, hp, rfl⟩
  obtain ⟨rest, s', hrest, hevents, hnot⟩ := Watched.exists_run_released (timers_lawful 3)
    (by decide) (accounted_of_run hrun) hr hview (Or.inl rfl)
  have htimers : ∀ x ∈ rest, x.event.isTimer = true := by
    intro x hx
    rcases hevents x hx with hevent | hevent <;> rw [hevent] <;> rfl
  obtain ⟨_, hsame, hdown, hempty⟩ := reminding_ends (by decide) hrun hrest htimers
  cases hsame
  exact ⟨_, s, rest, s', hrun, hr, hrest, hnot, hdown, hempty⟩

end RxTable

end Dispatch
end WallyIo
