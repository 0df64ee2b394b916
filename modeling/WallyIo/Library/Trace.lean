import Mathlib.Data.List.Basic
import Mathlib.Tactic.Common

/-!
# Traces

One step of a component may consist of many small acts, each of which changes the state
and has effects.  A trace is a sequence of acts together with all of their effects in
order.

Main results:

- Theorem {lit}`Trace.append`: traces compose.
- Theorem {lit}`Trace.invariant`: what every act preserves, given the effects so far, holds
  after the trace.
-/

namespace WallyIo
namespace Library

variable {σ ω : Type*}

/-- A sequence of acts. -/
inductive Trace (act : σ → List ω → σ → Prop) : σ → List ω → σ → Prop
  | nil (s : σ) : Trace act s [] s
  | cons {s t u : σ} {xs ys : List ω} :
      act s xs t → Trace act t ys u → Trace act s (xs ++ ys) u

namespace Trace

variable {act : σ → List ω → σ → Prop} {s t u : σ} {xs ys : List ω}

/-- One act is a trace. -/
theorem single (h : act s xs t) : Trace act s xs t := by
  have htrace := Trace.cons h (Trace.nil t)
  rw [List.append_nil] at htrace
  exact htrace

/-- Traces compose. -/
theorem append (hx : Trace act s xs t) (hy : Trace act t ys u) :
    Trace act s (xs ++ ys) u := by
  induction hx with
  | nil s => exact hy
  | cons hact _ ih =>
      rw [List.append_assoc]
      exact Trace.cons hact (ih hy)

/-- An act may be appended to a trace. -/
theorem snoc (hx : Trace act s xs t) (hy : act t ys u) : Trace act s (xs ++ ys) u :=
  hx.append (single hy)

/-- What every act preserves, given the effects so far, holds after the trace. -/
theorem invariant (inv : List ω → σ → Prop) (pre : List ω)
    (preserved : ∀ pre s xs t, inv pre s → act s xs t → inv (pre ++ xs) t)
    (init : inv pre s) (h : Trace act s xs t) : inv (pre ++ xs) t := by
  induction h generalizing pre with
  | nil s =>
      rw [List.append_nil]
      exact init
  | cons hact _ ih =>
      rw [← List.append_assoc]
      exact ih _ (preserved _ _ _ _ init hact)

end Trace

end Library
end WallyIo
