import Mathlib.Data.List.Basic

/-!
# Patterns over levels

A path is a list of levels, and so is a pattern.  In a pattern one distinguished level
stands for any single level; another one, at its end, stands for all the levels that
remain.

Main results:

- Theorem {lit}`matches_cons_cons_iff`: a pattern is matched from its front.
- Theorem {lit}`intercalate_cons`: joined levels are the first one, and then every other
  one behind a separator.
-/

namespace WallyIo
namespace Library
namespace LevelPattern

/-! ## Matching -/

section Matching

variable {β : Type*} {single multi : β}

/-- Whether one level of a pattern stands for a level. -/
def LevelMatches (single pattern level : β) : Prop := pattern = single ∨ pattern = level

instance [DecidableEq β] (pattern level : β) :
    Decidable (LevelMatches single pattern level) :=
  inferInstanceAs (Decidable (_ ∨ _))

/-- Whether a pattern matches the levels of a path. -/
inductive Matches (single multi : β) : List β → List β → Prop
  | nil : Matches single multi [] []
  | multi (levels : List β) : Matches single multi [multi] levels
  | level {pattern level : β} {patterns levels : List β}
      (head : LevelMatches single pattern level) (tail : Matches single multi patterns levels) :
      Matches single multi (pattern :: patterns) (level :: levels)

variable {f t : β} {fs ts : List β}

@[simp]
theorem matches_nil_iff : Matches single multi [] ts ↔ ts = [] := by
  constructor
  · intro h
    cases h
    rfl
  · rintro rfl
    exact .nil

@[simp]
theorem matches_cons_nil_iff :
    Matches single multi (f :: fs) [] ↔ f = multi ∧ fs = [] := by
  constructor
  · intro h
    cases h
    exact ⟨rfl, rfl⟩
  · rintro ⟨rfl, rfl⟩
    exact .multi []

/-- A pattern is matched from its front. -/
theorem matches_cons_cons_iff :
    Matches single multi (f :: fs) (t :: ts) ↔
      (f = multi ∧ fs = []) ∨ LevelMatches single f t ∧ Matches single multi fs ts := by
  constructor
  · intro h
    cases h with
    | multi => exact Or.inl ⟨rfl, rfl⟩
    | level head tail => exact Or.inr ⟨head, tail⟩
  · rintro (⟨rfl, rfl⟩ | ⟨head, tail⟩)
    · exact .multi _
    · exact .level head tail

/-- Matching can be computed. -/
instance decidableMatches [DecidableEq β] :
    (fs ts : List β) → Decidable (Matches single multi fs ts)
  | [], _ => decidable_of_iff _ matches_nil_iff.symm
  | _ :: _, [] => decidable_of_iff _ matches_cons_nil_iff.symm
  | f :: fs, t :: ts =>
      have := decidableMatches fs ts
      decidable_of_iff _ (matches_cons_cons_iff (f := f) (t := t)).symm

end Matching

/-! ## Joining -/

section Joining

variable {α : Type*} (sep : α)

/-- Joined levels are the first one, and then every other one behind a separator. -/
theorem intercalate_cons (f : List α) (fs : List (List α)) :
    [sep].intercalate (f :: fs) = f ++ fs.flatMap (sep :: ·) := by
  induction fs generalizing f with
  | nil => simp
  | cons g gs ih =>
      rw [List.intercalate_cons_cons, ih, List.flatMap_cons, List.append_assoc]
      rfl

end Joining

end LevelPattern
end Library
end WallyIo
