import Mathlib.Logic.Function.Basic
import Mathlib.Tactic.Common

/-!
# Finite tables

A map from keys to values, seen through its lookup function.  Insertion comes in
the two forms of an associative container: `insert` overwrites, `emplace` keeps
an entry that is already present.

Main results:

- Theorem {lit}`emplace_eq_insert`: on a free key `emplace` inserts.
- Theorems {lit}`lookup_insert` and {lit}`lookup_erase`: exact lookup after an
  update.
-/

namespace WallyIo
namespace Library

/-- A table maps each key to the value stored under it, if any. -/
def Table (κ ν : Type*) := κ → Option ν

namespace Table

variable {κ ν : Type*} [DecidableEq κ]

/-- The table without entries. -/
def empty : Table κ ν := fun _ => none

/-- The value stored under a key. -/
def lookup (t : Table κ ν) (k : κ) : Option ν := t k

/-- Whether a key is in use. -/
def contains (t : Table κ ν) (k : κ) : Bool := (t.lookup k).isSome

/-- Store a value, replacing what was stored under the key. -/
def insert (t : Table κ ν) (k : κ) (v : ν) : Table κ ν :=
  fun i => if i = k then some v else t i

/-- Store a value unless the key is in use, and tell whether it was stored. -/
def emplace (t : Table κ ν) (k : κ) (v : ν) : Table κ ν × Bool :=
  if t.contains k then (t, false) else (t.insert k v, true)

/-- Remove the entry stored under a key. -/
def erase (t : Table κ ν) (k : κ) : Table κ ν :=
  fun i => if i = k then none else t i

omit [DecidableEq κ] in
@[simp]
theorem lookup_empty (k : κ) : (empty : Table κ ν).lookup k = none := rfl

/-- Lookup after an insertion. -/
theorem lookup_insert (t : Table κ ν) (k i : κ) (v : ν) :
    (t.insert k v).lookup i = if i = k then some v else t.lookup i := rfl

@[simp]
theorem lookup_insert_self (t : Table κ ν) (k : κ) (v : ν) :
    (t.insert k v).lookup k = some v := by
  simp [lookup_insert]

@[simp]
theorem lookup_insert_of_ne (t : Table κ ν) {k i : κ} (v : ν) (h : i ≠ k) :
    (t.insert k v).lookup i = t.lookup i := by
  simp [lookup_insert, h]

/-- Lookup after a removal. -/
theorem lookup_erase (t : Table κ ν) (k i : κ) :
    (t.erase k).lookup i = if i = k then none else t.lookup i := rfl

@[simp]
theorem lookup_erase_self (t : Table κ ν) (k : κ) : (t.erase k).lookup k = none := by
  simp [lookup_erase]

@[simp]
theorem lookup_erase_of_ne (t : Table κ ν) {k i : κ} (h : i ≠ k) :
    (t.erase k).lookup i = t.lookup i := by
  simp [lookup_erase, h]

omit [DecidableEq κ] in
theorem contains_eq_true_iff (t : Table κ ν) (k : κ) :
    t.contains k = true ↔ ∃ v, t.lookup k = some v := by
  simp [contains, Option.isSome_iff_exists]

omit [DecidableEq κ] in
theorem contains_eq_false_iff (t : Table κ ν) (k : κ) :
    t.contains k = false ↔ t.lookup k = none := by
  simp [contains]

/-- On a free key `emplace` inserts. -/
theorem emplace_eq_insert {t : Table κ ν} {k : κ} (h : t.lookup k = none) (v : ν) :
    t.emplace k v = (t.insert k v, true) := by
  have hfree : t.contains k = false := (t.contains_eq_false_iff k).mpr h
  simp [emplace, hfree]

/-- On a key in use `emplace` changes nothing. -/
theorem emplace_of_contains {t : Table κ ν} {k : κ} (h : t.contains k = true) (v : ν) :
    t.emplace k v = (t, false) := by
  simp [emplace, h]

end Table

end Library
end WallyIo
