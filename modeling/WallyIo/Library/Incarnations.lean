import WallyIo.Library.Machine
import WallyIo.Library.Table

/-!
# Incarnations of stored objects

A component stores objects under keys.  When an object has been removed another one may be
stored under its key, but a reference to the first one does not refer to the second.  Here
every object is told apart from its successors by the step in which it was stored: the
component runs as before, and is watched.

Main results:

- Theorem {lit}`Tracked.stores_advance_iff`: which objects are stored after a step.
- Theorem {lit}`Tracked.Gone.advance`: an object that has been removed stays removed.
- Theorem {lit}`Watch.not_stored_of_gone`: so it does in the rest of a run.
- Theorem {lit}`Watch.countP_removes_le_one`: no object is removed twice in a run.
-/

namespace WallyIo
namespace Library

/-- An object: the key that it is stored under, and the step in which it was stored. -/
structure Incarnation (κ : Type*) where
  key : κ
  serial : Nat
deriving DecidableEq, Repr

/-- A state together with the objects that are stored in it. -/
structure Tracked (κ σ : Type*) where
  state : σ
  /-- When the object under a key was stored. -/
  serials : Table κ Nat
  /-- The number of steps so far. -/
  next : Nat

namespace Tracked

variable {κ σ : Type*}

/-- Nothing is stored yet. -/
def start (s : σ) : Tracked κ σ := ⟨s, Table.empty, 0⟩

/-- Whether an object is stored. -/
def Stores (s : Tracked κ σ) (r : Incarnation κ) : Prop :=
  s.serials.lookup r.key = some r.serial

instance (s : Tracked κ σ) (r : Incarnation κ) : Decidable (s.Stores r) :=
  inferInstanceAs (Decidable (_ = _))

variable (occupied : σ → κ → Bool)

/-- The component has made a step.  The objects that were stored before keep their numbers. -/
def advance (s : Tracked κ σ) (t : σ) : Tracked κ σ where
  state := t
  serials := fun k =>
    if occupied t k = true then
      if occupied s.state k = true then s.serials.lookup k else some s.next
    else none
  next := s.next + 1

/-- The numbers are those of the objects that the component stores. -/
structure Consistent (s : Tracked κ σ) : Prop where
  stored : ∀ k, (s.serials.lookup k).isSome = occupied s.state k
  numbered : ∀ r, s.Stores r → r.serial < s.next

/-- An object that has been stored is not stored any longer. -/
structure Gone (s : Tracked κ σ) (r : Incarnation κ) : Prop where
  numbered : r.serial < s.next
  removed : ¬ s.Stores r

variable {occupied} {s : Tracked κ σ} {t : σ} {r r' : Incarnation κ}

@[simp]
theorem state_advance : (s.advance occupied t).state = t := rfl

@[simp]
theorem next_advance : (s.advance occupied t).next = s.next + 1 := rfl

theorem serials_advance (k : κ) :
    (s.advance occupied t).serials.lookup k =
      if occupied t k = true then
        if occupied s.state k = true then s.serials.lookup k else some s.next
      else none := rfl

/-- No key has two objects. -/
theorem Stores.unique (h : s.Stores r) (h' : s.Stores r') (hkey : r.key = r'.key) : r = r' := by
  obtain ⟨k, n⟩ := r
  obtain ⟨k', n'⟩ := r'
  simp only at hkey
  subst hkey
  simp only [Stores] at h h'
  rw [h, Option.some.injEq] at h'
  rw [h']

theorem Stores.inUse (h : s.Stores r) (hs : s.Consistent occupied) :
    occupied s.state r.key = true := by
  rw [← hs.stored, h, Option.isSome_some]

/-- A key in use has an object. -/
theorem Consistent.exists_stores {k : κ} (hs : s.Consistent occupied)
    (hk : occupied s.state k = true) : ∃ n, s.Stores ⟨k, n⟩ := by
  rw [← hs.stored] at hk
  exact Option.isSome_iff_exists.mp hk

theorem consistent_start (h : ∀ k, occupied t k = false) :
    (start t : Tracked κ σ).Consistent occupied where
  stored k := by simp [start, h]
  numbered r hr := by simp [Stores, start] at hr

/-- Which objects are stored after a step: those whose keys stay in use, and a new one under
every key that has come into use. -/
theorem stores_advance_iff (hs : s.Consistent occupied) :
    (s.advance occupied t).Stores r ↔
      occupied t r.key = true ∧
        (s.Stores r ∨ occupied s.state r.key = false ∧ r.serial = s.next) := by
  have hunused : occupied s.state r.key = false → ¬ s.Stores r := by
    intro hk hr
    rw [hr.inUse hs] at hk
    cases hk
  cases ht : occupied t r.key with
  | false => simp [Stores, serials_advance, ht]
  | true =>
      cases hk : occupied s.state r.key with
      | true => simp [Stores, serials_advance, ht, hk]
      | false =>
          simp only [hunused hk, false_or, true_and]
          simp [Stores, serials_advance, ht, hk, eq_comm]

theorem Consistent.advance (hs : s.Consistent occupied) (t : σ) :
    (s.advance occupied t).Consistent occupied where
  stored k := by
    rw [serials_advance, state_advance]
    cases ht : occupied t k with
    | false => rfl
    | true =>
        cases hk : occupied s.state k with
        | true => simp [hs.stored, hk]
        | false => simp
  numbered r hr := by
    rw [next_advance]
    rcases (stores_advance_iff hs).mp hr with ⟨-, hr | ⟨-, hr⟩⟩
    · exact Nat.lt_succ_of_lt (hs.numbered r hr)
    · omega

/-- An object that is stored before and after a step has been stored all the time. -/
theorem stores_advance_of_stores (hs : s.Consistent occupied) (hr : s.Stores r) :
    (s.advance occupied t).Stores r ↔ occupied t r.key = true := by
  rw [stores_advance_iff hs]
  simp [hr]

/-- An object that a step stores under a free key. -/
theorem stores_new {k : κ} (hs : s.Consistent occupied) (hfree : occupied s.state k = false)
    (hk : occupied t k = true) : (s.advance occupied t).Stores ⟨k, s.next⟩ :=
  (stores_advance_iff hs).mpr ⟨hk, Or.inr ⟨hfree, rfl⟩⟩

/-- A step that brings no key into use stores no object. -/
theorem stores_of_advance (hs : s.Consistent occupied)
    (hkeys : ∀ k, occupied t k = true → occupied s.state k = true)
    (h : (s.advance occupied t).Stores r) : s.Stores r := by
  obtain ⟨hk, hr | ⟨hfree, -⟩⟩ := (stores_advance_iff hs).mp h
  · exact hr
  · rw [hkeys _ hk] at hfree
    cases hfree

/-- An object that has been removed stays removed. -/
theorem Gone.advance (h : s.Gone r) (hs : s.Consistent occupied) (t : σ) :
    (s.advance occupied t).Gone r where
  numbered := Nat.lt_succ_of_lt h.numbered
  removed hr := by
    rcases (stores_advance_iff hs).mp hr with ⟨-, hr | ⟨-, hr⟩⟩
    · exact h.removed hr
    · have hlt := h.numbered
      omega

/-- An object that a step removes is gone. -/
theorem Stores.gone (h : s.Stores r) (hs : s.Consistent occupied)
    (hr : ¬ (s.advance occupied t).Stores r) : (s.advance occupied t).Gone r :=
  ⟨Nat.lt_succ_of_lt (hs.numbered r h), hr⟩

end Tracked

/-! ## Objects in runs -/

/-- Only one element of a list has a property that no element behind one with it has. -/
theorem countP_le_one {α : Type*} {p : α → Bool} {l : List α}
    (h : ∀ pre x post, l = pre ++ x :: post → p x = true → ∀ y ∈ post, p y = false) :
    l.countP p ≤ 1 := by
  induction l with
  | nil => exact Nat.zero_le 1
  | cons x rest ih =>
      have hrest := ih fun pre y post hsplit => h (x :: pre) y post (by rw [hsplit]; rfl)
      cases hx : p x with
      | false =>
          rw [List.countP_cons_of_neg (by simp [hx])]
          exact hrest
      | true =>
          have hzero : rest.countP p = 0 := by
            rw [List.countP_eq_zero]
            intro y hy
            simp [h [] x rest rfl hx y hy]
          have hcount : (x :: rest).countP p = rest.countP p + 1 := List.countP_cons_of_pos hx
          omega

/-- If only one element of a list contributes anything, and this element contributes one, then
all of them contribute at most one. -/
theorem length_flatMap_le_one {α β : Type*} {f : α → List β} {l : List α}
    (hone : ∀ x ∈ l, (f x).length ≤ 1)
    (h : ∀ pre x post, l = pre ++ x :: post → f x ≠ [] → ∀ y ∈ post, f y = []) :
    (l.flatMap f).length ≤ 1 := by
  induction l with
  | nil => exact Nat.zero_le 1
  | cons x rest ih =>
      rw [List.flatMap_cons, List.length_append]
      by_cases hx : f x = []
      · have hrest := ih (fun y hy => hone y (List.mem_cons_of_mem _ hy))
          fun pre y post hsplit => h (x :: pre) y post (by rw [hsplit]; rfl)
        rw [hx, List.length_nil, Nat.zero_add]
        exact hrest
      · have hrest : rest.flatMap f = [] :=
          List.flatMap_eq_nil_iff.mpr (h [] x rest rfl hx)
        rw [hrest, List.length_nil, Nat.add_zero]
        exact hone x List.mem_cons_self

section Runs

variable {κ σ τ ε ω : Type*}

/-- A machine whose states show the objects of a component.  A step of the machine is a step of
the component, or does not concern it. -/
structure Watch (M : Machine (Option τ) ε ω) (occupied : σ → κ → Bool) where
  view : τ → Tracked κ σ
  step_view : ∀ {s s' : τ} {e : ε} {o : ω}, M.step (some s) e = some (o, some s') →
    view s' = view s ∨ ∃ t, view s' = (view s).advance occupied t
  step_none : ∀ e, M.step none e = none

namespace Watch

variable {M : Machine (Option τ) ε ω} {occupied : σ → κ → Bool} (W : Watch M occupied)

/-- Whether an object is stored in a state that has not failed. -/
def stored (s : Option τ) (r : Incarnation κ) : Bool :=
  s.any fun s => decide ((W.view s).Stores r)

/-- Whether a step removes an object. -/
def removes (r : Incarnation κ) (x : Step (Option τ) ε ω) : Bool :=
  W.stored x.before r && x.after.isSome && !W.stored x.after r

variable {W} {s s' : τ} {u : Option τ} {e : ε} {o : ω} {r : Incarnation κ}
  {steps : List (Step (Option τ) ε ω)}

@[simp]
theorem stored_some : W.stored (some s) r = true ↔ (W.view s).Stores r := by
  simp [stored]

@[simp]
theorem stored_none : W.stored none r = false := rfl

@[simp]
theorem stored_some_eq_false : W.stored (some s) r = false ↔ ¬ (W.view s).Stores r := by
  rw [← Bool.not_eq_true, stored_some]

/-- A step removes an object if it is stored before and not afterwards. -/
theorem removes_some : W.removes r ⟨some s, e, o, some s'⟩ = true ↔
    (W.view s).Stores r ∧ ¬ (W.view s').Stores r := by
  simp only [removes, Bool.and_eq_true, Bool.not_eq_true', stored_some, stored_some_eq_false,
    Option.isSome_some, and_true]

/-- The numbers of objects only grow. -/
theorem next_le (h : M.step (some s) e = some (o, some s')) :
    (W.view s).next ≤ (W.view s').next := by
  rcases W.step_view h with hsame | ⟨t, hnext⟩
  · exact Nat.le_of_eq (congrArg Tracked.next hsame).symm
  · rw [hnext, Tracked.next_advance]
    exact Nat.le_succ _

/-- An object stays stored as long as its key stays in use. -/
theorem stores_iff_inUse (hs : (W.view s).Consistent occupied) (hr : (W.view s).Stores r)
    (h : M.step (some s) e = some (o, some s')) :
    (W.view s').Stores r ↔ occupied (W.view s').state r.key = true := by
  rcases W.step_view h with hsame | ⟨t, hnext⟩
  · rw [hsame]
    exact iff_of_true hr (hr.inUse hs)
  · rw [hnext, Tracked.stores_advance_of_stores hs hr, Tracked.state_advance]

theorem consistent_step (hs : (W.view s).Consistent occupied)
    (h : M.step (some s) e = some (o, some s')) : (W.view s').Consistent occupied := by
  rcases W.step_view h with hsame | ⟨t, hnext⟩
  · rw [hsame]
    exact hs
  · rw [hnext]
    exact hs.advance t

theorem gone_step (hs : (W.view s).Consistent occupied) (hgone : (W.view s).Gone r)
    (h : M.step (some s) e = some (o, some s')) : (W.view s').Gone r := by
  rcases W.step_view h with hsame | ⟨t, hnext⟩
  · rw [hsame]
    exact hgone
  · rw [hnext]
    exact hgone.advance hs t

/-- An object that a step removes is gone. -/
theorem gone_of_removes (hs : (W.view s).Consistent occupied) (hr : (W.view s).Stores r)
    (h : M.step (some s) e = some (o, some s')) (hnot : ¬ (W.view s').Stores r) :
    (W.view s').Gone r := by
  rcases W.step_view h with hsame | ⟨t, hnext⟩
  · rw [hsame] at hnot
    exact absurd hr hnot
  · rw [hnext] at hnot ⊢
    exact hr.gone hs hnot

/-- The numbers stay those of the objects that are stored. -/
theorem consistent_of_run (hs : (W.view s).Consistent occupied)
    (h : M.Run (some s) steps (some s')) : (W.view s').Consistent occupied := by
  refine h.alive_invariant W.step_none (fun _ => True)
    (fun _ t => (W.view t).Consistent occupied) hs ?_ (fun _ _ => trivial)
  intro pre t e o u _ ht hstep _
  exact consistent_step ht hstep

/-- An object that has been removed is not stored in the rest of a run. -/
theorem not_stored_of_gone (hs : (W.view s).Consistent occupied) (hgone : (W.view s).Gone r)
    (h : M.Run (some s) steps u) :
    W.stored u r = false ∧ ∀ x ∈ steps, W.stored x.before r = false := by
  have hinv := h.history_invariant (fun _ => True)
    (fun pre u => (∀ v, u = some v → (W.view v).Consistent occupied ∧ (W.view v).Gone r) ∧
      ∀ x ∈ pre, W.stored x.before r = false)
    ⟨by rintro v hv; cases hv; exact ⟨hs, hgone⟩, by simp⟩
    (by
      rintro pre t e o u - ⟨ht, hpre⟩ hstep -
      cases t with
      | none => rw [W.step_none] at hstep; cases hstep
      | some t =>
          obtain ⟨hcons, hgone⟩ := ht t rfl
          refine ⟨?_, ?_⟩
          · rintro v rfl
            exact ⟨consistent_step hcons hstep, gone_step hcons hgone hstep⟩
          · intro x hx
            rcases List.mem_append.mp hx with hx | hx
            · exact hpre x hx
            · rw [List.mem_singleton.mp hx, ← Bool.not_eq_true, stored_some]
              exact hgone.removed)
    (fun _ _ => trivial)
  refine ⟨?_, hinv.2⟩
  cases u with
  | none => rfl
  | some v =>
      rw [← Bool.not_eq_true, stored_some]
      exact (hinv.1 v rfl).2.removed

/-- Behind a step that removes an object it is not stored. -/
theorem not_stored_of_removes (hs : (W.view s).Consistent occupied) (h : M.Run (some s) steps u)
    {pre post : List (Step (Option τ) ε ω)} {x : Step (Option τ) ε ω}
    (hsplit : steps = pre ++ x :: post) (hx : W.removes r x = true) :
    W.stored u r = false ∧ ∀ y ∈ post, W.stored y.before r = false := by
  obtain ⟨hpre, hstep, hpost⟩ := h.split hsplit
  obtain ⟨before, e, o, after⟩ := x
  simp only [removes, Bool.and_eq_true, Bool.not_eq_true'] at hx
  obtain ⟨⟨hbefore, hafter⟩, hnot⟩ := hx
  cases before with
  | none => rw [stored_none] at hbefore; cases hbefore
  | some t =>
      cases after with
      | none => cases hafter
      | some t' =>
          have hcons := consistent_of_run hs hpre
          rw [← Bool.not_eq_true, stored_some] at hnot
          exact not_stored_of_gone (consistent_step hcons hstep)
            (gone_of_removes hcons (stored_some.mp hbefore) hstep hnot) hpost

/-- Behind a step that ends an object it is not stored, even if the component fails with this
step. -/
theorem not_stored_of_ended (hs : (W.view s).Consistent occupied) (h : M.Run (some s) steps u)
    {pre post : List (Step (Option τ) ε ω)} {x : Step (Option τ) ε ω}
    (hsplit : steps = pre ++ x :: post) (hbefore : W.stored x.before r = true)
    (hafter : W.stored x.after r = false) : ∀ y ∈ post, W.stored y.before r = false := by
  intro y hy
  cases hnone : x.after with
  | none =>
      obtain ⟨-, -, hpost⟩ := h.split hsplit
      rw [hnone] at hpost
      cases hpost with
      | nil => cases hy
      | cons hstep _ => rw [W.step_none] at hstep; cases hstep
  | some t =>
      have hremoves : W.removes r x = true := by
        rw [removes, hbefore, hafter, hnone]
        rfl
      exact (not_stored_of_removes hs h hsplit hremoves).2 y hy

/-- An object that has been stored, and is not stored any longer, has been removed by a step. -/
theorem exists_removes (h : M.Run (some s) steps (some s')) (hr : (W.view s).Stores r)
    (hnot : ¬ (W.view s').Stores r) : ∃ x ∈ steps, W.removes r x = true := by
  have hinv : (W.view s').Stores r ∨ ∃ x ∈ steps, W.removes r x = true := by
    refine h.alive_invariant W.step_none (fun _ => True)
      (fun pre t => (W.view t).Stores r ∨ ∃ x ∈ pre, W.removes r x = true) (Or.inl hr) ?_
      (fun _ _ => trivial)
    rintro pre t e o u - (hstored | ⟨x, hx, hremoves⟩) hstep -
    · by_cases hu : (W.view u).Stores r
      · exact Or.inl hu
      · refine Or.inr ⟨_, List.mem_append_right _ (List.mem_singleton_self _), ?_⟩
        simp [removes, stored, hstored, hu]
    · exact Or.inr ⟨x, List.mem_append_left _ hx, hremoves⟩
  exact hinv.resolve_left hnot

/-- No object is removed twice. -/
theorem countP_removes_le_one (hs : (W.view s).Consistent occupied)
    (h : M.Run (some s) steps u) (r : Incarnation κ) : steps.countP (W.removes r) ≤ 1 := by
  apply countP_le_one
  intro pre x post hsplit hx y hy
  simp [removes, (not_stored_of_removes hs h hsplit hx).2 y hy]

/-- An object that is stored is removed exactly once, unless it stays stored. -/
theorem countP_removes (hs : (W.view s).Consistent occupied)
    (h : M.Run (some s) steps (some s')) (hr : (W.view s).Stores r) :
    steps.countP (W.removes r) = if (W.view s').Stores r then 0 else 1 := by
  split
  · rename_i hstored
    rw [List.countP_eq_zero]
    intro x hx hremoves
    obtain ⟨pre, post, hsplit⟩ := List.append_of_mem hx
    have hnot := (not_stored_of_removes hs h hsplit hremoves).1
    rw [stored_some.mpr hstored] at hnot
    cases hnot
  · rename_i hnot
    have hone := countP_removes_le_one hs h r
    have hpos : 0 < steps.countP (W.removes r) := List.countP_pos_iff.mpr (exists_removes h hr hnot)
    omega

end Watch

/-! ### Components without timers -/

namespace Tracked

variable {α φ : Type*} (occupied : σ → κ → Bool) (f : σ → ε → Option (Except φ (List α × σ)))

/-- The machine of a component that is watched. -/
def machine : Machine (Option (Tracked κ σ)) ε (Except φ (List α)) :=
  Machine.ofFallible fun s e =>
    (f s.state e).map (Except.map fun (calls, t) => (calls, s.advance occupied t))

variable {occupied f} {s : Tracked κ σ} {u : Option (Tracked κ σ)} {e : ε}
  {output : Except φ (List α)}

/-- The component fails, or it makes a step. -/
theorem machine_step_some (h : (machine occupied f).step (some s) e = some (output, u)) :
    (∃ failure, output = .error failure ∧ u = none) ∨
      ∃ calls t, f s.state e = some (.ok (calls, t)) ∧ output = .ok calls ∧
        u = some (s.advance occupied t) := by
  rcases Machine.ofFallible_step_some h with
    ⟨failure, -, houtput, hu⟩ | ⟨calls, s', hstep, houtput, hu⟩
  · exact Or.inl ⟨failure, houtput, hu⟩
  · obtain ⟨answer, hanswer, hmap⟩ := Option.map_eq_some_iff.mp hstep
    cases answer with
    | error failure => cases hmap
    | ok result =>
        obtain ⟨calls', t⟩ := result
        cases hmap
        exact Or.inr ⟨calls, t, hanswer, houtput, hu⟩

variable (occupied f) in
/-- The machine shows the objects of the component. -/
def objects : Watch (machine occupied f) occupied where
  view := id
  step_view {s s' e o} h := by
    rcases machine_step_some h with ⟨failure, -, hnone⟩ | ⟨calls, t, -, -, hsome⟩
    · cases hnone
    · exact Or.inr ⟨t, Option.some.inj hsome⟩
  step_none _ := rfl

end Tracked

end Runs

end Library
end WallyIo
