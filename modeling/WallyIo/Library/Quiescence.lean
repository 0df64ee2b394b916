import WallyIo.Library.WeakHandlers
import Mathlib.Algebra.BigOperators.Group.Finset.Basic
import Mathlib.Data.Fintype.BigOperators

/-!
# Components that are left to their timers

If nothing happens to a component any more but what its timers do, then it comes to rest.  Every
expiration that an object survives uses up one of its retries, and every other step of a timer
uses up a wait or a handler.

Main results:

- Theorem {lit}`budget_of_moves`: each step of a timer is paid for.
- Theorem {lit}`atRest_of_stuck`: the timers stop only when no object waits for anything.
- Theorem {lit}`runsDown_of_run`: they make no more steps, and the objects no more calls, than
  there are left when the component is left to its timers.
-/

namespace WallyIo
namespace Library

/-- Whether something happens on account of a timer. -/
def Occasion.isTimer {κ ε : Type*} : Occasion κ ε → Bool
  | .event _ => false
  | .elapses _ => true
  | .handler _ => true

namespace Timers

variable {κ σ ε α φ : Type*}

/-- What is seen of all objects together. -/
def total [Fintype κ] (T : Timers κ σ ε) (g : TimerView → Nat) (s : σ) : Nat :=
  ∑ k, (T.view s k).elim 0 g

/-- Only what is seen of one object changes. -/
theorem total_of_others [Fintype κ] [DecidableEq κ] {T : Timers κ σ ε} (g : TimerView → Nat)
    {s t : σ} {i : κ} (hothers : ∀ k, k ≠ i → T.view t k = T.view s k) :
    T.total g t + (T.view s i).elim 0 g = T.total g s + (T.view t i).elim 0 g := by
  have hrest : ∑ k ∈ Finset.univ.erase i, (T.view t k).elim 0 g =
      ∑ k ∈ Finset.univ.erase i, (T.view s k).elim 0 g := by
    apply Finset.sum_congr rfl
    intro k hk
    rw [hothers k (Finset.ne_of_mem_erase hk)]
  have hsplit (u : σ) : (T.view u i).elim 0 g +
      ∑ k ∈ Finset.univ.erase i, (T.view u k).elim 0 g = T.total g u :=
    Finset.add_sum_erase _ (fun k => (T.view u k).elim 0 g) (Finset.mem_univ i)
  have ht := hsplit t
  have hs := hsplit s
  omega

/-- Timers do not fail, and an object answers an expiration by one call at most, and by none if
it is given up. -/
structure Thrifty (T : Timers κ σ ε) (f : σ → ε → Option (Except φ (List α × σ)))
    (inv : σ → Prop) : Prop where
  elapses : ∀ {s i answer}, inv s → f s (T.elapses i) = some answer →
    ∃ t, answer = .ok ([], t)
  timeout : ∀ {s i answer}, inv s → f s (T.timeout i) = some answer →
    ∃ calls t, answer = .ok (calls, t) ∧ calls.length ≤ (T.occupied t i).toNat

end Timers

namespace Watched

variable {κ σ ε α φ : Type*} [Fintype κ]

/-- The expirations that the stored objects survive. -/
def retries (T : Timers κ σ ε) (limit : Nat) (s : Watched κ σ) : Nat :=
  T.total (fun v => limit - v.count) s.state

/-- The waits that are pending. -/
def waits (T : Timers κ σ ε) (s : Watched κ σ) : Nat :=
  T.total (fun v => v.armed.toNat) s.state

/-- Every retry is a wait that elapses and a handler that runs. -/
def budget (T : Timers κ σ ε) (limit : Nat) (s : Watched κ σ) : Nat :=
  2 * retries T limit s + 2 * waits T s + s.queue.length

/-- Nothing is left to be done. -/
def AtRest (T : Timers κ σ ε) (s : Watched κ σ) : Prop :=
  s.queue = [] ∧ ∀ k v, T.view s.state k = some v → v.armed = false ∧ v.queued = 0

variable [DecidableEq κ] {T : Timers κ σ ε} {f : σ → ε → Option (Except φ (List α × σ))}
  {limit wrap : Nat} {inv : σ → Prop} {s s' : Watched κ σ} {o : Occasion κ ε} {calls : List α}
  {steps rest : List (WatchedStep κ σ ε α φ)} {r : Incarnation κ}

/-! ## One step -/

omit [Fintype κ] in
/-- An object that is stored has not exceeded the limit. -/
theorem count_le (hwrap : limit + 1 < wrap) (hs : Accounted T limit wrap inv steps s)
    (hr : s.Stores r) {v : TimerView} (hv : T.view s.state r.key = some v) : v.count ≤ limit := by
  have hcounted : v.count = handled r steps % wrap := hs.2.counted hr hv
  have hbounded : handled r steps ≤ limit := hs.2.bounded hwrap hr
  rw [Nat.mod_eq_of_lt (by omega)] at hcounted
  omega

/-- Every step of a timer is paid for. -/
theorem budget_of_moves (hT : T.Lawful f inv limit wrap) (hwrap : limit + 1 < wrap)
    (hs : Accounted T limit wrap inv steps s) (h : Moves T f s o calls s')
    (ho : o.isTimer = true) : budget T limit s' < budget T limit s := by
  cases h with
  | event e calls t hkind h => cases ho
  | elapses r calls t hr h =>
      obtain ⟨hothers, v, hv, harmed, hv'⟩ := hT.elapses hs.1 h
      have hretries := T.total_of_others (fun v => limit - v.count) hothers
      have hwaits := T.total_of_others (fun v => v.armed.toNat) hothers
      simp only [hv, hv', Option.elim, TimerView.elapsed, harmed, Bool.toNat_true,
        Bool.toNat_false] at hretries hwaits
      simp only [budget, retries, waits, Tracked.state_advance, List.length_append,
        List.length_singleton]
      omega
  | handler r calls t hqueued hr h =>
      obtain ⟨hothers, v, hv, -, hv'⟩ := hT.timeout hs.1 h
      have hcount := count_le hwrap hs hr hv
      have hretries := T.total_of_others (fun v => limit - v.count) hothers
      have hwaits := T.total_of_others (fun v => v.armed.toNat) hothers
      have hlength := List.length_erase_of_mem hqueued
      have hpos := List.length_pos_of_mem hqueued
      rw [Nat.mod_eq_of_lt (by omega)] at hv'
      simp only [budget, retries, waits, Tracked.state_advance]
      split at hv'
      · -- a retry pays for the wait that is started
        simp only [hv, hv', Option.elim, TimerView.restarted, Bool.toNat_true] at hretries hwaits
        omega
      · simp only [hv, hv', Option.elim] at hretries hwaits
        omega
  | late r hqueued hr =>
      have hlength := List.length_erase_of_mem hqueued
      have hpos := List.length_pos_of_mem hqueued
      simp only [budget, retries, waits]
      omega

/-- Every call is one of the retries. -/
theorem retries_of_moves (hT : T.Lawful f inv limit wrap) (hthrifty : T.Thrifty f inv)
    (hwrap : limit + 1 < wrap) (hs : Accounted T limit wrap inv steps s)
    (h : Moves T f s o calls s') (ho : o.isTimer = true) :
    retries T limit s' + calls.length ≤ retries T limit s := by
  cases h with
  | event e calls t hkind h => cases ho
  | elapses r calls t hr h =>
      obtain ⟨hothers, v, hv, -, hv'⟩ := hT.elapses hs.1 h
      obtain ⟨u, hanswer⟩ := hthrifty.elapses hs.1 h
      cases hanswer
      have hretries := T.total_of_others (fun v => limit - v.count) hothers
      simp only [hv, hv', Option.elim, TimerView.elapsed] at hretries
      simp only [retries, Tracked.state_advance, List.length_nil]
      omega
  | handler r calls t hqueued hr h =>
      obtain ⟨hothers, v, hv, -, hv'⟩ := hT.timeout hs.1 h
      obtain ⟨calls', u, hanswer, hcalls⟩ := hthrifty.timeout hs.1 h
      cases hanswer
      have hcount := count_le hwrap hs hr hv
      have hretries := T.total_of_others (fun v => limit - v.count) hothers
      rw [Nat.mod_eq_of_lt (by omega)] at hv'
      simp only [retries, Tracked.state_advance]
      rw [Timers.occupied, hv'] at hcalls
      split at hv'
      · rename_i hle
        rw [if_pos hle] at hcalls
        simp only [hv, hv', Option.elim, TimerView.restarted] at hretries
        simp only [Option.isSome_some, Bool.toNat_true] at hcalls
        omega
      · rename_i hlt
        rw [if_neg hlt] at hcalls
        simp only [hv, hv', Option.elim] at hretries
        simp only [Option.isSome_none, Bool.toNat_false] at hcalls
        omega
  | late r hqueued hr =>
      simp only [retries, List.length_nil, Nat.add_zero]
      exact Nat.le_refl _

omit [Fintype κ] in
/-- A timer does not make the component fail. -/
theorem exists_after_of_timer (hthrifty : T.Thrifty f inv) (hinv : inv s.state)
    {output : Except φ (List α)} {u : Option (Watched κ σ)}
    (h : (machine T f).step (some s) o = some (output, u)) (ho : o.isTimer = true) :
    ∃ s', u = some s' := by
  rcases Machine.ofFallible_step_some h with ⟨failure, hfail, -, -⟩ | ⟨calls, s', -, -, hnext⟩
  · exfalso
    cases o with
    | event e => cases ho
    | elapses k =>
        simp only [watch] at hfail
        split at hfail
        · obtain ⟨answer, hanswer, hfollow⟩ := Option.map_eq_some_iff.mp hfail
          obtain ⟨t, rfl⟩ := hthrifty.elapses hinv hanswer
          rw [follow_eq_error_iff] at hfollow
          cases hfollow
        · cases hfail
    | handler r =>
        simp only [watch] at hfail
        split at hfail
        · split at hfail
          · obtain ⟨answer, hanswer, hfollow⟩ := Option.map_eq_some_iff.mp hfail
            obtain ⟨calls, t, rfl, -⟩ := hthrifty.timeout hinv hanswer
            rw [follow_eq_error_iff] at hfollow
            cases hfollow
          · cases hfail
        · cases hfail
  · exact ⟨s', hnext⟩

omit [Fintype κ] in
/-- The timers of a component stop only when it is at rest. -/
theorem atRest_of_stuck (hT : T.Lawful f inv limit wrap)
    (hs : Accounted T limit wrap inv steps s)
    (hstuck : ∀ o : Occasion κ ε, o.isTimer = true → (machine T f).step (some s) o = none) :
    AtRest T s := by
  have hqueue : s.queue = [] := by
    rw [List.eq_nil_iff_forall_not_mem]
    intro r hqueued
    have hnone := hstuck (.handler r) rfl
    by_cases hr : s.Stores r
    · obtain ⟨v, hv⟩ := exists_view hs.2.consistent hr
      have hpos : 0 < v.queued := by
        rw [← hs.2.queued hr hv]
        exact List.count_pos_iff.mpr hqueued
      obtain ⟨output, s', hstep, -⟩ := exists_step_handler hT hs hr hv hpos
      cases hnone.symm.trans hstep
    · have hlate : watch T f s (.handler r) =
          some (.ok ([], { s with queue := s.queue.erase r })) := by
        rw [watch, if_pos hqueued, if_neg hr]
      cases hnone.symm.trans (step_of_watch hlate)
  refine ⟨hqueue, ?_⟩
  intro k v hv
  obtain ⟨n, hr⟩ := hs.2.consistent.exists_stores (Timers.occupied_eq_true_iff.mpr ⟨v, hv⟩)
  constructor
  · by_contra harmed
    obtain ⟨output, s', hstep, -⟩ :=
      exists_step_elapses hT hs hr hv (Bool.eq_true_of_not_eq_false harmed)
    cases (hstuck (.elapses k) rfl).symm.trans hstep
  · have hcount : s.queue.count ⟨k, n⟩ = v.queued := hs.2.queued hr hv
    rw [← hcount, hqueue, List.count_nil]

/-! ## Runs -/

/-- The calls that are made in some steps. -/
def callsOf (steps : List (WatchedStep κ σ ε α φ)) : List α :=
  steps.flatMap fun x => x.output.toOption.getD []

omit [Fintype κ] [DecidableEq κ] in
theorem callsOf_snoc (s u : Option (Watched κ σ)) (o : Occasion κ ε) (calls : List α) :
    callsOf (steps ++ [⟨s, o, .ok calls, u⟩]) = callsOf steps ++ calls := by
  rw [callsOf, callsOf, List.flatMap_append, List.flatMap_singleton]
  rfl

/-- What is spent by the timers. -/
theorem spends_of_run (hT : T.Lawful f inv limit wrap) (hthrifty : T.Thrifty f inv)
    (hwrap : limit + 1 < wrap) (hs : Accounted T limit wrap inv steps s)
    {u : Option (Watched κ σ)} (h : (machine T f).Run (some s) rest u)
    (htimers : ∀ x ∈ rest, x.event.isTimer = true) :
    ∃ s', u = some s' ∧ Accounted T limit wrap inv (steps ++ rest) s' ∧
      budget T limit s' + rest.length ≤ budget T limit s ∧
        retries T limit s' + (callsOf rest).length ≤ retries T limit s := by
  refine h.history_invariant (fun x => x.event.isTimer = true)
    (fun pre u => ∃ s', u = some s' ∧ Accounted T limit wrap inv (steps ++ pre) s' ∧
      budget T limit s' + pre.length ≤ budget T limit s ∧
        retries T limit s' + (callsOf pre).length ≤ retries T limit s) ?_ ?_ htimers
  · exact ⟨s, rfl, by rwa [List.append_nil], Nat.le_refl _, Nat.le_refl _⟩
  · rintro pre t o output u - ⟨s₁, rfl, hs₁, hbudget, hretries⟩ hstep ho
    obtain ⟨s₂, rfl⟩ := exists_after_of_timer hthrifty hs₁.1 hstep ho
    have hs₂ := hs₁.step hT hstep
    obtain ⟨calls, rfl, hmoves⟩ := moves_of_step hstep
    have hpaid := budget_of_moves hT hwrap hs₁ hmoves ho
    have hcalls := retries_of_moves hT hthrifty hwrap hs₁ hmoves ho
    refine ⟨s₂, rfl, by rwa [List.append_assoc] at hs₂, ?_, ?_⟩
    · rw [List.length_append, List.length_singleton]
      omega
    · rw [callsOf_snoc, List.length_append]
      omega

/-- What a component does that is left to its timers. -/
structure RunsDown (T : Timers κ σ ε) (f : σ → ε → Option (Except φ (List α × σ)))
    (limit : Nat) (s : Watched κ σ) (rest : List (WatchedStep κ σ ε α φ)) (s' : Watched κ σ) :
    Prop where
  /-- The timers make no more steps than there are left. -/
  steps : budget T limit s' + rest.length ≤ budget T limit s
  /-- The objects make no more calls than they have retries. -/
  calls : retries T limit s' + (callsOf rest).length ≤ retries T limit s
  /-- It goes on until it is at rest. -/
  next : (∃ o output u, o.isTimer = true ∧
    (machine T f).step (some s') o = some (output, some u)) ∨ AtRest T s'

theorem runsDown_of_run (hT : T.Lawful f inv limit wrap) (hthrifty : T.Thrifty f inv)
    (hwrap : limit + 1 < wrap) (hs : Accounted T limit wrap inv steps s)
    {u : Option (Watched κ σ)} (h : (machine T f).Run (some s) rest u)
    (htimers : ∀ x ∈ rest, x.event.isTimer = true) :
    ∃ s', u = some s' ∧ RunsDown T f limit s rest s' := by
  obtain ⟨s', rfl, hs', hsteps, hcalls⟩ := spends_of_run hT hthrifty hwrap hs h htimers
  refine ⟨s', rfl, hsteps, hcalls, ?_⟩
  by_cases hnext : ∃ o output u, o.isTimer = true ∧
      (machine T f).step (some s') o = some (output, some u)
  · exact Or.inl hnext
  · right
    apply atRest_of_stuck hT hs'
    intro o ho
    by_contra hsome
    obtain ⟨⟨output, u⟩, hstep⟩ := Option.ne_none_iff_exists'.mp hsome
    obtain ⟨s'', rfl⟩ := exists_after_of_timer hthrifty hs'.1 hstep ho
    exact hnext ⟨o, output, s'', ho, hstep⟩

end Watched

end Library
end WallyIo
