import Mathlib.Tactic.Common

/-!
# Waitable timers with queued handlers

A waitable timer holds at most one pending asynchronous wait here.  When the
wait elapses its handler is queued and runs later; cancelling the timer calls the
handler of a pending wait with an error, and has no influence on a handler that
is already queued.

Main results:

- Theorem {lit}`cancel_expired`: cancelling leaves queued handlers alone.
- Theorems {lit}`expire_eq_some_iff` and {lit}`takeExpired_eq_some_iff`: when a wait elapses, and
  when a handler runs.
- Theorem {lit}`restart_pending`: a restarted timer has something to wait for.
- Theorem {lit}`outstanding_cancel`: every wait has its handler called once, cancelled or not.
-/

namespace WallyIo
namespace Library

/-- A waitable timer together with the handlers it has queued. -/
structure Timer where
  /-- An asynchronous wait is pending. -/
  armed : Bool
  /-- Handlers queued because their wait elapsed. -/
  expired : Nat
  /-- Handlers queued because their wait was cancelled. -/
  aborted : Nat
deriving DecidableEq, Repr

namespace Timer

/-- A new timer waits for nothing. -/
def idle : Timer := ⟨false, 0, 0⟩

/-- Cancel the pending wait, if any. -/
def cancel (t : Timer) : Timer :=
  if t.armed then { t with armed := false, aborted := t.aborted + 1 } else t

/-- Set a new expiry time, which cancels the pending wait. -/
def expiresFromNow (t : Timer) : Timer := t.cancel

/-- Start an asynchronous wait. -/
def asyncWait (t : Timer) : Timer := { t with armed := true }

/-- Set a new expiry time and wait for it. -/
def restart (t : Timer) : Timer := t.expiresFromNow.asyncWait

/-- The pending wait elapses and its handler is queued. -/
def expire (t : Timer) : Option Timer :=
  if t.armed then some { t with armed := false, expired := t.expired + 1 } else none

/-- Take a handler whose wait elapsed off the queue in order to run it. -/
def takeExpired (t : Timer) : Option Timer :=
  if 0 < t.expired then some { t with expired := t.expired - 1 } else none

/-- Take a handler whose wait was cancelled off the queue in order to run it. -/
def takeAborted (t : Timer) : Option Timer :=
  if 0 < t.aborted then some { t with aborted := t.aborted - 1 } else none

/-- Some wait of this timer will still run its handler without an error. -/
def Pending (t : Timer) : Prop := t.armed = true ∨ 0 < t.expired

instance (t : Timer) : Decidable t.Pending :=
  inferInstanceAs (Decidable (_ ∨ _))

/-- The handlers that have not run, that of the pending wait included. -/
def outstanding (t : Timer) : Nat := t.armed.toNat + t.expired + t.aborted

@[simp]
theorem cancel_expired (t : Timer) : t.cancel.expired = t.expired := by
  unfold cancel
  split <;> rfl

@[simp]
theorem cancel_armed (t : Timer) : t.cancel.armed = false := by
  unfold cancel
  split
  · rfl
  · rename_i hnot
    exact Bool.eq_false_iff.mpr hnot

/-- A wait elapses if it is pending. -/
theorem expire_eq_some_iff {t u : Timer} :
    t.expire = some u ↔
      t.armed = true ∧ u = { t with armed := false, expired := t.expired + 1 } := by
  unfold expire
  split
  · rename_i harmed
    rw [Option.some.injEq, eq_comm]
    exact (and_iff_right harmed).symm
  · rename_i harmed
    exact ⟨nofun, fun h => absurd h.1 harmed⟩

/-- A handler is taken off the queue if there is one. -/
theorem takeExpired_eq_some_iff {t u : Timer} :
    t.takeExpired = some u ↔ 0 < t.expired ∧ u = { t with expired := t.expired - 1 } := by
  unfold takeExpired
  split
  · rename_i hqueued
    rw [Option.some.injEq, eq_comm]
    exact (and_iff_right hqueued).symm
  · rename_i hqueued
    exact ⟨nofun, fun h => absurd h.1 hqueued⟩

/-- A handler whose wait was cancelled is taken off the queue if there is one. -/
theorem takeAborted_eq_some_iff {t u : Timer} :
    t.takeAborted = some u ↔ 0 < t.aborted ∧ u = { t with aborted := t.aborted - 1 } := by
  unfold takeAborted
  split
  · rename_i hqueued
    rw [Option.some.injEq, eq_comm]
    exact (and_iff_right hqueued).symm
  · rename_i hqueued
    exact ⟨nofun, fun h => absurd h.1 hqueued⟩

/-- A timer that waits for nothing cannot be cancelled. -/
theorem cancel_of_not_armed {t : Timer} (h : t.armed = false) : t.cancel = t := by
  rw [cancel, h, if_neg Bool.false_ne_true]

@[simp]
theorem restart_armed (t : Timer) : t.restart.armed = true := rfl

@[simp]
theorem restart_expired (t : Timer) : t.restart.expired = t.expired := cancel_expired t

/-- Cancelling changes how a handler runs, not whether it does. -/
@[simp]
theorem outstanding_cancel (t : Timer) : t.cancel.outstanding = t.outstanding := by
  unfold cancel
  split
  · rename_i harmed
    simp only [outstanding, harmed, Bool.toNat_true, Bool.toNat_false]
    omega
  · rfl

/-- A restarted timer has one more handler. -/
@[simp]
theorem outstanding_restart (t : Timer) : t.restart.outstanding = t.outstanding + 1 := by
  have hcancel := outstanding_cancel t
  simp only [outstanding, cancel_armed, cancel_expired, Bool.toNat_false] at hcancel
  simp only [restart, expiresFromNow, asyncWait, outstanding, cancel_expired, Bool.toNat_true]
  omega

/-- A wait that elapses has its handler queued. -/
theorem outstanding_of_expire {t u : Timer} (h : t.expire = some u) :
    u.outstanding = t.outstanding := by
  obtain ⟨harmed, rfl⟩ := expire_eq_some_iff.mp h
  simp only [outstanding, harmed, Bool.toNat_true, Bool.toNat_false]
  omega

/-- A handler that runs is gone. -/
theorem outstanding_of_takeExpired {t u : Timer} (h : t.takeExpired = some u) :
    u.outstanding + 1 = t.outstanding := by
  obtain ⟨hqueued, rfl⟩ := takeExpired_eq_some_iff.mp h
  simp only [outstanding]
  omega

/-- A handler that runs because its wait was cancelled is gone. -/
theorem outstanding_of_takeAborted {t u : Timer} (h : t.takeAborted = some u) :
    u.outstanding + 1 = t.outstanding := by
  obtain ⟨hqueued, rfl⟩ := takeAborted_eq_some_iff.mp h
  simp only [outstanding]
  omega

/-- A restarted timer is waiting. -/
theorem restart_pending (t : Timer) : t.restart.Pending := Or.inl rfl

end Timer

end Library
end WallyIo
