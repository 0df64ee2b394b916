import Mathlib.Data.List.Basic
import Mathlib.Tactic.Common

/-!
# Machines with refusals and their runs

An event-driven component is described by a partial step function: an event is
either refused in a state or answered by an output and a next state.  A run
keeps every executed step, so that properties of whole histories are statements
about the list of steps.

Main results:

- Theorem {lit}`Run.snoc_induction`: a run is built by appending its last step.
- Theorem {lit}`Run.split`: each step of a run starts in a state reached by the
  steps before it.
- Theorem {lit}`Run.invariant` and {lit}`Run.history_invariant`: what every step
  preserves holds after every run.
- Theorem {lit}`run_exec`: executing a list of events produces a run.
- Theorem {lit}`Run.alive_invariant`: the same for components that may fail, as long as they
  have not failed.
- Theorem {lit}`ofFallible_step_some`: a component whose steps may fail makes its
  last step when it fails.
-/

namespace WallyIo
namespace Library

/-- A component with states `σ`, events `ε` and outputs `ω`.  An event is
refused where it cannot happen. -/
structure Machine (σ ε ω : Type*) where
  step : σ → ε → Option (ω × σ)

/-- One executed step of a machine. -/
structure Step (σ ε ω : Type*) where
  before : σ
  event : ε
  output : ω
  after : σ

namespace Machine

variable {σ ε ω : Type*} (M : Machine σ ε ω)

/-- `M.Run s steps t` executes `steps` from `s` and ends in `t`. -/
inductive Run : σ → List (Step σ ε ω) → σ → Prop
  | nil (s : σ) : Run s [] s
  | cons {s t u : σ} {e : ε} {o : ω} {steps : List (Step σ ε ω)} :
      M.step s e = some (o, t) → Run t steps u →
      Run s (⟨s, e, o, t⟩ :: steps) u

/-- Execute a list of events, refusing the list as soon as one of them is
refused. -/
def exec : σ → List ε → Option (List (Step σ ε ω) × σ)
  | s, [] => some ([], s)
  | s, e :: es =>
      match M.step s e with
      | none => none
      | some (o, t) =>
          match exec t es with
          | none => none
          | some (steps, u) => some (⟨s, e, o, t⟩ :: steps, u)

variable {M}

/-- Execution of events yields a run of the machine. -/
theorem run_exec {s u : σ} {es : List ε} {steps : List (Step σ ε ω)}
    (h : M.exec s es = some (steps, u)) : M.Run s steps u := by
  induction es generalizing s steps with
  | nil =>
      simp only [exec, Option.some.injEq, Prod.mk.injEq] at h
      obtain ⟨rfl, rfl⟩ := h
      exact Run.nil s
  | cons e es ih =>
      cases hstep : M.step s e with
      | none => simp [exec, hstep] at h
      | some answer =>
          obtain ⟨o, t⟩ := answer
          cases hrest : M.exec t es with
          | none => simp [exec, hstep, hrest] at h
          | some rest =>
              obtain ⟨steps', v⟩ := rest
              simp only [exec, hstep, hrest, Option.some.injEq, Prod.mk.injEq] at h
              obtain ⟨rfl, rfl⟩ := h
              exact Run.cons hstep (ih hrest)

/-- A list of events that is executed is processed event by event. -/
theorem events_of_exec {s u : σ} {es : List ε} {steps : List (Step σ ε ω)}
    (h : M.exec s es = some (steps, u)) : steps.map Step.event = es := by
  induction es generalizing s steps with
  | nil =>
      simp only [exec, Option.some.injEq, Prod.mk.injEq] at h
      obtain ⟨rfl, rfl⟩ := h
      rfl
  | cons e es ih =>
      cases hstep : M.step s e with
      | none => simp [exec, hstep] at h
      | some answer =>
          obtain ⟨o, t⟩ := answer
          cases hrest : M.exec t es with
          | none => simp [exec, hstep, hrest] at h
          | some rest =>
              obtain ⟨steps', v⟩ := rest
              simp only [exec, hstep, hrest, Option.some.injEq, Prod.mk.injEq] at h
              obtain ⟨rfl, rfl⟩ := h
              rw [List.map_cons, ih hrest]

/-- Runs compose. -/
theorem Run.append {s t u : σ} {xs ys : List (Step σ ε ω)}
    (hx : M.Run s xs t) (hy : M.Run t ys u) : M.Run s (xs ++ ys) u := by
  induction hx with
  | nil s => exact hy
  | cons hstep _ ih => exact Run.cons hstep (ih hy)

/-- A single step is a run. -/
theorem Run.single {s t : σ} {e : ε} {o : ω} (h : M.step s e = some (o, t)) :
    M.Run s [⟨s, e, o, t⟩] t :=
  Run.cons h (Run.nil t)

/-- A run over concatenated steps passes through a middle state. -/
theorem Run.of_append {s u : σ} {xs ys : List (Step σ ε ω)}
    (h : M.Run s (xs ++ ys) u) : ∃ t, M.Run s xs t ∧ M.Run t ys u := by
  induction xs generalizing s with
  | nil => exact ⟨s, Run.nil s, h⟩
  | cons x xs ih =>
      cases h with
      | cons hstep hrest =>
          obtain ⟨t, hxs, hys⟩ := ih hrest
          exact ⟨t, Run.cons hstep hxs, hys⟩

/-- A step inside a run is taken from the state that the steps before it
reach. -/
theorem Run.split {s u : σ} {steps pre post : List (Step σ ε ω)} {x : Step σ ε ω}
    (h : M.Run s steps u) (hsplit : steps = pre ++ x :: post) :
    M.Run s pre x.before ∧ M.step x.before x.event = some (x.output, x.after) ∧
      M.Run x.after post u := by
  subst hsplit
  obtain ⟨t, hpre, hrest⟩ := h.of_append
  cases hrest with
  | cons hstep hpost => exact ⟨hpre, hstep, hpost⟩

/-- A run of one step makes this step. -/
theorem Run.step_of_singleton {s u : σ} {x : Step σ ε ω} (h : M.Run s [x] u) :
    M.step x.before x.event = some (x.output, x.after) :=
  (h.split (List.nil_append [x]).symm).2.1

/-- Runs are built by appending their last step. -/
theorem Run.snoc_induction {s : σ} {motive : List (Step σ ε ω) → σ → Prop}
    (nil : motive [] s)
    (snoc : ∀ pre t e o u, M.Run s pre t → M.step t e = some (o, u) →
      motive pre t → motive (pre ++ [⟨t, e, o, u⟩]) u)
    {steps : List (Step σ ε ω)} {u : σ} (h : M.Run s steps u) : motive steps u := by
  suffices hgen : ∀ pre t, M.Run s pre t → motive pre t → ∀ post u, M.Run t post u →
      motive (pre ++ post) u by
    simpa using hgen [] s (Run.nil s) nil steps u h
  intro pre t hpre hmotive post u hpost
  induction hpost generalizing pre with
  | nil t => simpa using hmotive
  | @cons t v u e o post hstep _ ih =>
      have hnext := snoc pre t e o v hpre hstep hmotive
      simpa using ih (pre ++ [⟨t, e, o, v⟩]) (hpre.append (Run.single hstep)) hnext

/-- What a run's steps preserve, as long as they meet a condition, holds of the
history and of the state reached. -/
theorem Run.history_invariant {s : σ} (cond : Step σ ε ω → Prop)
    (inv : List (Step σ ε ω) → σ → Prop) (init : inv [] s)
    (preserved : ∀ pre t e o u, M.Run s pre t → inv pre t → M.step t e = some (o, u) →
      cond ⟨t, e, o, u⟩ → inv (pre ++ [⟨t, e, o, u⟩]) u)
    {steps : List (Step σ ε ω)} {u : σ} (h : M.Run s steps u)
    (hcond : ∀ x ∈ steps, cond x) : inv steps u := by
  have hmotive : (∀ x ∈ steps, cond x) → inv steps u :=
    h.snoc_induction (motive := fun steps u => (∀ x ∈ steps, cond x) → inv steps u)
      (fun _ => init) (by
        intro pre t e o u hpre hstep ih hall
        have hlast : cond ⟨t, e, o, u⟩ := hall _ (by simp)
        have hbefore : inv pre t := ih (fun x hx => hall x (by simp [hx]))
        exact preserved pre t e o u hpre hbefore hstep hlast)
  exact hmotive hcond

/-- A state property preserved by every step that meets a condition holds after
every run whose steps meet it. -/
theorem Run.invariant {s : σ} (cond : Step σ ε ω → Prop) (inv : σ → Prop) (init : inv s)
    (preserved : ∀ t e o u, inv t → M.step t e = some (o, u) → cond ⟨t, e, o, u⟩ → inv u)
    {steps : List (Step σ ε ω)} {u : σ} (h : M.Run s steps u)
    (hcond : ∀ x ∈ steps, cond x) : inv u :=
  h.history_invariant cond (fun _ t => inv t) init
    (fun _ t e o u _ ht hstep hc => preserved t e o u ht hstep hc) hcond

/-! ## Components that fail -/

/-- Where a failure is the last thing that happens, what every other step preserves, as long as
the steps meet a condition, holds of the history and of a state that has been reached without a
failure. -/
theorem Run.alive_invariant {M : Machine (Option σ) ε ω} (hnone : ∀ e, M.step none e = none)
    {s u : σ} (cond : Step (Option σ) ε ω → Prop) (inv : List (Step (Option σ) ε ω) → σ → Prop)
    (init : inv [] s)
    (preserved : ∀ pre t e o u, M.Run (some s) pre (some t) → inv pre t →
      M.step (some t) e = some (o, some u) → cond ⟨some t, e, o, some u⟩ →
        inv (pre ++ [⟨some t, e, o, some u⟩]) u)
    {steps : List (Step (Option σ) ε ω)} (h : M.Run (some s) steps (some u))
    (hcond : ∀ x ∈ steps, cond x) : inv steps u := by
  have hinv := h.history_invariant cond (fun steps t => ∀ v, t = some v → inv steps v)
    (by
      rintro v hv
      cases hv
      exact init)
    (by
      rintro pre t e o u hpre ht hstep hx v rfl
      cases t with
      | none =>
          rw [hnone] at hstep
          cases hstep
      | some t => exact preserved pre t e o v hpre (ht t rfl) hstep hx)
    hcond
  exact hinv u rfl

/-- No step of a run that has not ended in a failure has failed. -/
theorem Run.alive_split {M : Machine (Option σ) ε ω} (hnone : ∀ e, M.step none e = none) {s u : σ}
    {steps pre post : List (Step (Option σ) ε ω)} {x : Step (Option σ) ε ω}
    (h : M.Run (some s) steps (some u)) (hsplit : steps = pre ++ x :: post) :
    ∃ t t', x = ⟨some t, x.event, x.output, some t'⟩ ∧ M.Run (some s) pre (some t) ∧
      M.step (some t) x.event = some (x.output, some t') ∧ M.Run (some t') post (some u) := by
  obtain ⟨hpre, hstep, hpost⟩ := h.split hsplit
  obtain ⟨before, e, o, after⟩ := x
  cases before with
  | none =>
      rw [hnone] at hstep
      cases hstep
  | some t =>
      cases after with
      | some t' => exact ⟨t, t', rfl, hpre, hstep, hpost⟩
      | none =>
          cases hpost with
          | cons hnext _ =>
              rw [hnone] at hnext
              cases hnext

variable {φ : Type*}

/-- The machine of a component whose steps may fail.  Failing is the last thing
that it does: the state {lit}`none` refuses every event. -/
def ofFallible (f : σ → ε → Option (Except φ (ω × σ))) :
    Machine (Option σ) ε (Except φ ω) where
  step
    | none, _ => none
    | some s, e =>
        match f s e with
        | none => none
        | some (.error failure) => some (.error failure, none)
        | some (.ok (o, t)) => some (.ok o, some t)

/-- A step of a fallible component either fails for good or reaches a state. -/
theorem ofFallible_step_some {f : σ → ε → Option (Except φ (ω × σ))} {s : σ} {e : ε}
    {o : Except φ ω} {t : Option σ} (h : (ofFallible f).step (some s) e = some (o, t)) :
    (∃ failure, f s e = some (.error failure) ∧ o = .error failure ∧ t = none) ∨
      ∃ o' t', f s e = some (.ok (o', t')) ∧ o = .ok o' ∧ t = some t' := by
  simp only [ofFallible] at h
  cases hf : f s e with
  | none => simp [hf] at h
  | some answer =>
      cases answer with
      | error failure =>
          simp only [hf, Option.some.injEq, Prod.mk.injEq] at h
          exact Or.inl ⟨failure, rfl, h.1.symm, h.2.symm⟩
      | ok next =>
          obtain ⟨o', t'⟩ := next
          simp only [hf, Option.some.injEq, Prod.mk.injEq] at h
          exact Or.inr ⟨o', t', rfl, h.1.symm, h.2.symm⟩

/-- A step after which a fallible component has not failed. -/
theorem ofFallible_step_alive_iff {f : σ → ε → Option (Except φ (ω × σ))} {s t : σ} {e : ε}
    {o : Except φ ω} : (ofFallible f).step (some s) e = some (o, some t) ↔
      ∃ o', f s e = some (.ok (o', t)) ∧ o = .ok o' := by
  constructor
  · intro h
    rcases ofFallible_step_some h with ⟨failure, -, -, hnone⟩ | ⟨o', t', hf, ho, hsome⟩
    · cases hnone
    · cases hsome
      exact ⟨o', hf, ho⟩
  · rintro ⟨o', hf, rfl⟩
    simp only [ofFallible, hf]

/-- The output of a step tells how the component has answered. -/
theorem ofFallible_output {f : σ → ε → Option (Except φ (ω × σ))} {s : σ} {e : ε}
    {o : Except φ ω} {t : Option σ} (h : (ofFallible f).step (some s) e = some (o, t)) :
    ∃ result, f s e = some result ∧ o = result.map Prod.fst := by
  rcases ofFallible_step_some h with ⟨failure, hf, rfl, -⟩ | ⟨o', t', hf, rfl, -⟩
  · exact ⟨_, hf, rfl⟩
  · exact ⟨_, hf, rfl⟩

end Machine

end Library
end WallyIo
