import Mathlib.Data.List.Basic
import Mathlib.Tactic.Common

/-!
# Vectors on the heap

A growing array lives in a block of memory that has room for more elements than
the array holds.  An asynchronous operation remembers the block and the size that
the array had when the operation began, and works on the block later, when the
array may have changed or moved to another block.

Main results:

- Theorem {lit}`elements_grow`: growing appends elements, in the old block or in a
  new one.
- Theorem {lit}`take_memory_grow`: what the array held stays in front.
- Theorem {lit}`take_memory_write`: data written through a remembered block stand
  behind what was there.
- Theorem {lit}`elements_write`: while the array occupies the block, they replace its
  elements.
- Theorem {lit}`read_view_of_size_le`: what is read through a block that the array
  still occupies is what the array holds.
-/

namespace WallyIo
namespace Library

variable {α : Type*}

/-- Write data over a stretch of memory. -/
def overwrite (memory : List α) (offset : Nat) (data : List α) : List α :=
  memory.take offset ++ data ++ memory.drop (offset + data.length)

/-- Memory does not shrink when it is written to. -/
theorem length_le_length_overwrite (memory : List α) (offset : Nat) (data : List α) :
    memory.length ≤ (overwrite memory offset data).length := by
  simp only [overwrite, List.length_append, List.length_take, List.length_drop]
  omega

/-- Written data stand behind the memory in front of them. -/
theorem take_overwrite {memory : List α} {offset : Nat} (data : List α)
    (h : offset ≤ memory.length) :
    (overwrite memory offset data).take (offset + data.length) =
      memory.take offset ++ data := by
  have hlength : (memory.take offset ++ data).length = offset + data.length := by
    simp only [List.length_append, List.length_take]
    omega
  rw [overwrite, ← hlength, List.take_left']
  rfl

/-- Memory in front of the written data is unchanged. -/
theorem take_overwrite_of_le {memory : List α} {offset k : Nat} (data : List α)
    (h : offset ≤ memory.length) (hk : k ≤ offset) :
    (overwrite memory offset data).take k = memory.take k := by
  have hlength : k ≤ (memory.take offset).length := by
    rw [List.length_take]
    omega
  rw [overwrite, List.append_assoc, List.take_append_of_le_length hlength, List.take_take,
    Nat.min_eq_left hk]

/-- An array of {lit}`size` elements in a block of memory.  Blocks are numbered in
the order in which the array occupies them. -/
structure HeapVector (α : Type*) where
  storage : Nat
  memory : List α
  size : Nat
  fits : size ≤ memory.length

/-- What an asynchronous operation remembers of an array. -/
structure View where
  storage : Nat
  size : Nat
deriving DecidableEq, Repr

namespace HeapVector

/-- An array in a block of its own. -/
def ofList (xs : List α) : HeapVector α := ⟨0, xs, xs.length, Nat.le_refl _⟩

variable (v : HeapVector α)

/-- The number of elements that the block has room for. -/
def capacity : Nat := v.memory.length

/-- The elements of the array. -/
def elements : List α := v.memory.take v.size

/-- Block and size of the array at this moment. -/
def view : View := ⟨v.storage, v.size⟩

/-- Remove all elements.  The block is kept. -/
def clear : HeapVector α := ⟨v.storage, v.memory, 0, Nat.zero_le _⟩

/-- Append {lit}`n` copies of an element.  If the block has no room for them, the
array moves to a new block that is at least twice as large as the array. -/
def grow (n : Nat) (a : α) : HeapVector α :=
  if h : v.size + n ≤ v.capacity then
    ⟨v.storage, overwrite v.memory v.size (List.replicate n a), v.size + n, by
      have hlength := length_le_length_overwrite v.memory v.size (List.replicate n a)
      exact Nat.le_trans h hlength⟩
  else
    ⟨v.storage + 1, v.elements ++ List.replicate (max v.size n) a, v.size + n, by
      have hfits := v.fits
      simp only [elements, List.length_append, List.length_take, List.length_replicate]
      omega⟩

/-- Change the size, appending copies of an element if need be. -/
def resize (n : Nat) (a : α) : HeapVector α :=
  if h : n ≤ v.size then ⟨v.storage, v.memory, n, Nat.le_trans h v.fits⟩
  else v.grow (n - v.size) a

/-- Write data into a remembered block.  If the array has left that block, this
does not change the array. -/
def write (view : View) (offset : Nat) (data : List α) : HeapVector α :=
  if v.storage = view.storage then
    ⟨v.storage, overwrite v.memory offset data, v.size,
      Nat.le_trans v.fits (length_le_length_overwrite v.memory offset data)⟩
  else v

/-- Read from a remembered block.  A block that the array has left cannot be read
any more. -/
def read (view : View) (offset n : Nat) : Option (List α) :=
  if v.storage = view.storage then some ((v.memory.drop offset).take n) else none

@[simp]
theorem size_ofList (xs : List α) : (ofList xs).size = xs.length := rfl

@[simp]
theorem elements_ofList (xs : List α) : (ofList xs).elements = xs := by
  simp [elements, ofList]

@[simp]
theorem length_elements : v.elements.length = v.size := by
  have hfits := v.fits
  simp only [elements, List.length_take]
  omega

/-- The first elements are found at the beginning of the block. -/
theorem take_elements {k : Nat} (h : k ≤ v.size) :
    v.elements.take k = v.memory.take k := by
  rw [elements, List.take_take, Nat.min_eq_left h]

@[simp]
theorem size_grow (n : Nat) (a : α) : (v.grow n a).size = v.size + n := by
  unfold grow
  split <;> rfl

/-- Growing appends elements. -/
theorem elements_grow (n : Nat) (a : α) :
    (v.grow n a).elements = v.elements ++ List.replicate n a := by
  unfold grow
  split
  · have htake := take_overwrite (List.replicate n a) v.fits
    rw [List.length_replicate] at htake
    exact htake
  · have hlength : v.elements.length = v.size := v.length_elements
    change (v.elements ++ List.replicate (max v.size n) a).take (v.size + n) = _
    rw [List.take_append, hlength, List.take_of_length_le (by omega), Nat.add_sub_cancel_left,
      List.take_replicate, Nat.min_eq_left (Nat.le_max_right _ _)]

/-- What the array held stays in front when it grows. -/
theorem take_memory_grow {k : Nat} (n : Nat) (a : α) (h : k ≤ v.size) :
    (v.grow n a).memory.take k = v.memory.take k := by
  have hsize : k ≤ (v.grow n a).size := by
    rw [size_grow]
    omega
  have hlength : k ≤ v.elements.length := by
    rw [length_elements]
    exact h
  rw [← take_elements _ hsize, elements_grow, List.take_append_of_le_length hlength,
    take_elements v h]

@[simp]
theorem size_resize (n : Nat) (a : α) : (v.resize n a).size = n := by
  unfold resize
  split
  · rfl
  · rw [size_grow]
    omega

@[simp]
theorem size_write (view : View) (offset : Nat) (data : List α) :
    (v.write view offset data).size = v.size := by
  unfold write
  split <;> rfl

@[simp]
theorem storage_write (view : View) (offset : Nat) (data : List α) :
    (v.write view offset data).storage = v.storage := by
  unfold write
  split <;> rfl

/-- Memory in front of the written data is unchanged. -/
theorem take_memory_write_of_le {view : View} {offset k : Nat} (data : List α)
    (h : offset ≤ v.size) (hk : k ≤ offset) :
    (v.write view offset data).memory.take k = v.memory.take k := by
  unfold write
  split
  · exact take_overwrite_of_le data (Nat.le_trans h v.fits) hk
  · rfl

/-- Data written into the block of the array stand behind what was there. -/
theorem take_memory_write {view : View} (offset : Nat) (data : List α)
    (hstorage : v.storage = view.storage) (h : offset ≤ v.size) :
    (v.write view offset data).memory.take (offset + data.length) =
      v.memory.take offset ++ data := by
  unfold write
  rw [if_pos hstorage]
  exact take_overwrite data (Nat.le_trans h v.fits)

/-- An array that is cleared and resized consists of copies of one element. -/
theorem elements_resize_clear (n : Nat) (a : α) :
    (v.clear.resize n a).elements = List.replicate n a := by
  unfold resize
  split
  · rename_i hle
    have hzero : n = 0 := Nat.le_zero.mp hle
    subst hzero
    rfl
  · rw [elements_grow]
    rfl

/-- Data written into the block of the array replace elements, as far as the array
reaches. -/
theorem elements_write {view : View} {offset : Nat} {data : List α}
    (hstorage : v.storage = view.storage) (h : offset + data.length ≤ v.size) :
    (v.write view offset data).elements = overwrite v.elements offset data := by
  have hfits := v.fits
  have hfront : (v.memory.take v.size).take offset = v.memory.take offset := by
    rw [List.take_take, Nat.min_eq_left (by omega)]
  have hfrontLength : (v.memory.take offset).length = offset := by
    rw [List.length_take, Nat.min_eq_left (by omega)]
  have hfrontAll : (v.memory.take offset).take v.size = v.memory.take offset :=
    List.take_of_length_le (by omega)
  have hdataAll : data.take (v.size - offset) = data := List.take_of_length_le (by omega)
  simp only [elements, size_write]
  unfold write
  rw [if_pos hstorage]
  simp only [overwrite]
  rw [hfront, List.append_assoc, List.append_assoc, List.take_append, List.take_append,
    hfrontLength, hfrontAll, hdataAll, List.drop_take, Nat.sub_sub]

/-- What is read through a block that the array still occupies is what the array
holds, as far as the array reaches. -/
theorem read_view_of_size_le {view : View} {offset n : Nat}
    (hstorage : v.storage = view.storage) (h : offset + n ≤ v.size) :
    v.read view offset n = some ((v.elements.drop offset).take n) := by
  have htake : ((v.memory.take v.size).drop offset).take n =
      (v.memory.drop offset).take n := by
    rw [List.drop_take, List.take_take, Nat.min_eq_left (by omega)]
  rw [read, if_pos hstorage, elements, htake]

end HeapVector

end Library
end WallyIo
