import Mathlib.Order.Basic

/-!
# Footprints of computations

A computation that may fail reads memory at some positions.  Its footprint records the
positions along the steps of the computation; the computation itself is left as it is.

Main results:

- Definition {lit}`Footprint.bind`: the second step leaves a footprint if the first one
  returns.
- Theorem {lit}`Footprint.within_bind_iff`: a footprint stays within bounds step by step.
- Theorem {lit}`Footprint.Covers.bind`: a footprint covers what a computation depends on if
  its steps do.
-/

namespace WallyIo
namespace Library

universe u v

/-- The positions that a computation reads, in the order of its steps. -/
structure Footprint {ε : Type v} {α : Type u} (x : Except ε α) where
  positions : List Nat

namespace Footprint

variable {ε : Type v} {α β : Type u}

/-- A computation that reads nothing. -/
def nothing (x : Except ε α) : Footprint x := ⟨[]⟩

/-- A computation that reads one position. -/
def one (pos : Nat) (x : Except ε α) : Footprint x := ⟨[pos]⟩

/-- A computation that reads a range of positions. -/
def range (pos n : Nat) (x : Except ε α) : Footprint x := ⟨List.range' pos n⟩

/-- The second step leaves a footprint if the first one returns. -/
def bind {x : Except ε α} {f : α → Except ε β} (first : Footprint x)
    (second : ∀ a, Footprint (f a)) : Footprint (x >>= f) :=
  ⟨first.positions ++ match x with
    | .ok a => (second a).positions
    | .error _ => []⟩

/-- One of two computations is done, which may use the condition. -/
def dite (c : Prop) [Decidable c] {x : c → Except ε α} {y : ¬ c → Except ε α}
    (first : ∀ h, Footprint (x h)) (second : ∀ h, Footprint (y h)) :
    Footprint (if h : c then x h else y h) :=
  ⟨if h : c then (first h).positions else (second h).positions⟩

/-- One of two computations is done. -/
def ite (c : Prop) [Decidable c] {x y : Except ε α} (first : Footprint x)
    (second : Footprint y) : Footprint (if c then x else y) :=
  ⟨if c then first.positions else second.positions⟩

/-- The footprint lies between two positions. -/
def Within (lo hi : Nat) {x : Except ε α} (footprint : Footprint x) : Prop :=
  ∀ i ∈ footprint.positions, lo ≤ i ∧ i < hi

instance (lo hi : Nat) {x : Except ε α} (footprint : Footprint x) :
    Decidable (footprint.Within lo hi) :=
  inferInstanceAs (Decidable (∀ i ∈ footprint.positions, _))

variable {lo hi pos n : Nat} {x y : Except ε α}

@[simp]
theorem within_nothing : (nothing x).Within lo hi :=
  fun _ hi => absurd hi List.not_mem_nil

@[simp]
theorem within_one_iff : (one pos x).Within lo hi ↔ lo ≤ pos ∧ pos < hi := by
  simp [Within, one]

/-- A range within bounds. -/
theorem within_range (hlo : lo ≤ pos) (hhi : pos + n ≤ hi) : (range pos n x).Within lo hi := by
  intro i hmem
  have hi := List.mem_range'_1.mp hmem
  omega

/-- A footprint stays within bounds step by step. -/
theorem within_bind_iff {f : α → Except ε β} {first : Footprint x}
    {second : ∀ a, Footprint (f a)} :
    (first.bind second).Within lo hi ↔
      first.Within lo hi ∧ ∀ a, x = .ok a → (second a).Within lo hi := by
  unfold Within bind
  simp only [List.forall_mem_append]
  refine and_congr_right fun _ => ?_
  cases x with
  | error e => simp
  | ok a => simp

theorem within_bind {f : α → Except ε β} {first : Footprint x} {second : ∀ a, Footprint (f a)}
    (hfirst : first.Within lo hi) (hsecond : ∀ a, x = .ok a → (second a).Within lo hi) :
    (first.bind second).Within lo hi :=
  within_bind_iff.mpr ⟨hfirst, hsecond⟩

/-- A step in front that reads nothing. -/
theorem within_nothing_bind {f : α → Except ε β} {second : ∀ a, Footprint (f a)}
    (hsecond : ∀ a, x = .ok a → (second a).Within lo hi) :
    ((nothing x).bind second).Within lo hi :=
  within_bind within_nothing hsecond

theorem within_dite {c : Prop} [Decidable c] {x : c → Except ε α} {y : ¬ c → Except ε α}
    {first : ∀ h, Footprint (x h)} {second : ∀ h, Footprint (y h)}
    (hfirst : ∀ h, (first h).Within lo hi) (hsecond : ∀ h, (second h).Within lo hi) :
    (dite c first second).Within lo hi := by
  unfold Within dite
  split
  · exact hfirst ‹_›
  · exact hsecond ‹_›

/-- The footprint of one of two computations. -/
theorem within_ite {c : Prop} [Decidable c] {first : Footprint x} {second : Footprint y}
    (hfirst : c → first.Within lo hi) (hsecond : ¬ c → second.Within lo hi) :
    (ite c first second).Within lo hi := by
  unfold Within ite
  split
  · exact hfirst ‹_›
  · exact hsecond ‹_›

/-! ## What a computation depends on -/

section Covers

variable {τ : Type*} {buffer buffer' : List τ}

/-- If a second buffer holds the same elements at the positions of the footprint, then another
computation, which is done on it, has the same outcome. -/
def Covers (buffer buffer' : List τ) {x : Except ε α} (footprint : Footprint x)
    (y : Except ε α) : Prop :=
  (∀ i ∈ footprint.positions, buffer[i]? = buffer'[i]?) → y = x

theorem covers_nothing : (nothing x).Covers buffer buffer' x :=
  fun _ => rfl

theorem covers_one (h : buffer[pos]? = buffer'[pos]? → y = x) :
    (one pos x).Covers buffer buffer' y :=
  fun hsame => h (hsame pos (List.mem_singleton.mpr rfl))

theorem covers_range (h : (∀ i, pos ≤ i → i < pos + n → buffer[i]? = buffer'[i]?) → y = x) :
    (range pos n x).Covers buffer buffer' y :=
  fun hsame => h fun i hlo hhi => hsame i (List.mem_range'_1.mpr ⟨hlo, hhi⟩)

/-- A footprint covers two steps if the first one does, and the second one where it is done. -/
theorem Covers.bind {f g : α → Except ε β} {first : Footprint x} {second : ∀ a, Footprint (f a)}
    (hfirst : first.Covers buffer buffer' y)
    (hsecond : ∀ a, x = .ok a → (second a).Covers buffer buffer' (g a)) :
    (first.bind second).Covers buffer buffer' (y >>= g) := by
  unfold Covers Footprint.bind at *
  simp only [List.forall_mem_append]
  rintro ⟨hsame, hsame'⟩
  rw [hfirst hsame]
  cases x with
  | error e => rfl
  | ok a => exact hsecond a rfl hsame'

/-- A step in front that reads nothing. -/
theorem covers_nothing_bind {f g : α → Except ε β} {second : ∀ a, Footprint (f a)}
    (hsecond : ∀ a, x = .ok a → (second a).Covers buffer buffer' (g a)) :
    ((nothing x).bind second).Covers buffer buffer' (x >>= g) :=
  covers_nothing.bind hsecond

theorem covers_dite {c : Prop} [Decidable c] {x x' : c → Except ε α} {y y' : ¬ c → Except ε α}
    {first : ∀ h, Footprint (x h)} {second : ∀ h, Footprint (y h)}
    (hfirst : ∀ h, (first h).Covers buffer buffer' (x' h))
    (hsecond : ∀ h, (second h).Covers buffer buffer' (y' h)) :
    (dite c first second).Covers buffer buffer' (if h : c then x' h else y' h) := by
  unfold Covers dite
  split
  · exact hfirst ‹_›
  · exact hsecond ‹_›

theorem covers_ite {c : Prop} [Decidable c] {x' y' : Except ε α} {first : Footprint x}
    {second : Footprint y} (hfirst : c → first.Covers buffer buffer' x')
    (hsecond : ¬ c → second.Covers buffer buffer' y') :
    (ite c first second).Covers buffer buffer' (if c then x' else y') := by
  unfold Covers ite
  split
  · exact hfirst ‹_›
  · exact hsecond ‹_›

end Covers

end Footprint

end Library
end WallyIo
