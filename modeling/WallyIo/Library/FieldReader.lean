import Mathlib.Data.List.TakeDrop

/-!
# Readers of fields

A reader is called at a position of a buffer.  It returns a value and the position behind
the field that it has read, or it fails.

Main results:

- Theorem {lit}`slice_eq_append_iff`: two parts of a slice meet at a position.
- Definition {lit}`Reads`: a reader accepts exactly the fields that stand for a value.
- Theorem {lit}`Reads.bind_eq_ok_iff`: what a reader and its continuation accept.
-/

namespace WallyIo
namespace Library
namespace FieldReader

/-! ## Slices of a buffer -/

section Slices

variable {τ : Type*} {buffer : List τ} {pos mid endPos : Nat} {xs ys : List τ}

/-- The part of a buffer between two positions. -/
def slice (buffer : List τ) (pos endPos : Nat) : List τ :=
  (buffer.drop pos).take (endPos - pos)

theorem length_slice (hend : endPos ≤ buffer.length) :
    (slice buffer pos endPos).length = endPos - pos := by
  rw [slice, List.length_take, List.length_drop]
  omega

@[simp]
theorem slice_self : slice buffer pos pos = [] := by
  simp [slice]

/-- Two neighbouring slices form a slice. -/
theorem slice_append (hpos : pos ≤ mid) (hmid : mid ≤ endPos) :
    slice buffer pos mid ++ slice buffer mid endPos = slice buffer pos endPos := by
  have hsum : endPos - pos = (mid - pos) + (endPos - mid) := by omega
  have hdrop : pos + (mid - pos) = mid := by omega
  rw [slice, slice, slice, hsum, List.take_add, List.drop_drop, hdrop]

/-- Two parts of a slice meet at a position. -/
theorem slice_eq_append_iff (hpos : pos ≤ endPos) (hend : endPos ≤ buffer.length) :
    slice buffer pos endPos = xs ++ ys ↔
      ∃ mid, pos ≤ mid ∧ mid ≤ endPos ∧ slice buffer pos mid = xs ∧
        slice buffer mid endPos = ys := by
  constructor
  · intro h
    have hlength : (slice buffer pos endPos).length = endPos - pos := length_slice hend
    rw [h, List.length_append] at hlength
    have hmid : pos + xs.length ≤ endPos := by omega
    have hfront : (slice buffer pos (pos + xs.length)).length = xs.length := by
      rw [length_slice (Nat.le_trans hmid hend), Nat.add_sub_cancel_left]
    rw [← slice_append (Nat.le_add_right pos xs.length) hmid] at h
    have hparts := List.append_inj h hfront
    exact ⟨pos + xs.length, Nat.le_add_right _ _, hmid, hparts.1, hparts.2⟩
  · rintro ⟨mid, hmid, hmid', rfl, rfl⟩
    exact (slice_append hmid hmid').symm

/-- A slice without elements ends where it begins. -/
theorem slice_eq_nil_iff (hpos : pos ≤ endPos) (hend : endPos ≤ buffer.length) :
    slice buffer pos endPos = [] ↔ pos = endPos := by
  constructor
  · intro h
    have hlength : (slice buffer pos endPos).length = endPos - pos := length_slice hend
    rw [h, List.length_nil] at hlength
    omega
  · rintro rfl
    exact slice_self

/-- A slice is the front of what follows its beginning. -/
theorem slice_eq_iff (hmid : mid ≤ buffer.length) :
    pos ≤ mid ∧ slice buffer pos mid = xs ↔ mid = pos + xs.length ∧ xs <+: buffer.drop pos := by
  constructor
  · rintro ⟨hpos, rfl⟩
    rw [length_slice hmid]
    exact ⟨by omega, List.take_prefix _ _⟩
  · rintro ⟨rfl, rest, hdrop⟩
    refine ⟨Nat.le_add_right _ _, ?_⟩
    rw [slice, ← hdrop, Nat.add_sub_cancel_left]
    exact List.take_left

end Slices

/-! ## Readers -/

section Readers

universe u

variable {τ ε : Type*} {α β : Type u} {buffer : List τ} {endPos : Nat}

/-- In front of an end, the reader accepts exactly the fields that stand for a value. -/
def Reads (buffer : List τ) (endPos : Nat) (read : Nat → Except ε (Nat × α))
    (field : α → List τ → Prop) : Prop :=
  ∀ pos pos' x, pos ≤ endPos → (read pos = .ok (pos', x) ↔
    pos ≤ pos' ∧ pos' ≤ endPos ∧ field x (slice buffer pos pos'))

variable {read : Nat → Except ε (Nat × α)} {field : α → List τ → Prop}

/-- A reader and a continuation that depends on the elements behind the field: together they
accept a field that is followed by what the continuation accepts. -/
theorem Reads.bind_eq_ok_iff (h : Reads buffer endPos read field) {pos : Nat}
    (hpos : pos ≤ endPos) (hend : endPos ≤ buffer.length) {next : Nat × α → Except ε β} {b : β}
    (accepts : α → List τ → Prop)
    (hnext : ∀ pos' x, pos ≤ pos' → pos' ≤ endPos → field x (slice buffer pos pos') →
      (next (pos', x) = .ok b ↔ accepts x (slice buffer pos' endPos))) :
    (read pos >>= next) = .ok b ↔
      ∃ x front rest, field x front ∧ slice buffer pos endPos = front ++ rest ∧
        accepts x rest := by
  have hread : (read pos >>= next) = .ok b ↔
      ∃ pos' x, read pos = .ok (pos', x) ∧ next (pos', x) = .ok b := by
    cases read pos with
    | error e => simp [bind, Except.bind]
    | ok result =>
        obtain ⟨pos', x⟩ := result
        constructor
        · intro hok
          exact ⟨pos', x, rfl, hok⟩
        · rintro ⟨_, _, hresult, hok⟩
          cases hresult
          exact hok
  rw [hread]
  constructor
  · rintro ⟨pos', x, hx, hb⟩
    obtain ⟨hle, hle', hfield⟩ := (h pos pos' x hpos).mp hx
    exact ⟨x, slice buffer pos pos', slice buffer pos' endPos, hfield,
      (slice_append hle hle').symm, (hnext pos' x hle hle' hfield).mp hb⟩
  · rintro ⟨x, front, rest, hfield, hslice, haccepts⟩
    obtain ⟨pos', hle, hle', rfl, rfl⟩ := (slice_eq_append_iff hpos hend).mp hslice
    exact ⟨pos', x, (h pos pos' x hpos).mpr ⟨hle, hle', hfield⟩,
      (hnext pos' x hle hle' hfield).mpr haccepts⟩

/-- The fields of valid values that are encoded one after another. -/
theorem exists_forall₂_encode_iff {encode : α → List τ} {valid : α → Prop} {xs : List α}
    {elements : List τ} :
    (∃ fields, List.Forall₂ (fun x front => valid x ∧ front = encode x) xs fields ∧
        elements = fields.flatten) ↔
      (∀ x ∈ xs, valid x) ∧ elements = xs.flatMap encode := by
  constructor
  · rintro ⟨fields, hfields, rfl⟩
    induction hfields with
    | nil => simp
    | cons hx _ ih =>
        obtain ⟨hvalid, rfl⟩ := hx
        exact ⟨List.forall_mem_cons.mpr ⟨hvalid, ih.1⟩, by rw [List.flatten_cons, ih.2]; rfl⟩
  · rintro ⟨hvalid, rfl⟩
    refine ⟨xs.map encode, ?_, rfl⟩
    induction xs with
    | nil => exact .nil
    | cons x xs ih =>
        obtain ⟨hx, hvalid⟩ := List.forall_mem_cons.mp hvalid
        exact .cons ⟨hx, rfl⟩ (ih hvalid)

/-- The fields of entries, which determine both the values and the elements. -/
theorem exists_forall₂_entries_iff {γ : Type*} {value : γ → α} {encode : γ → List τ}
    {xs : List α} {elements : List τ} :
    (∃ fields, List.Forall₂ (fun x front => ∃ e, front = encode e ∧ value e = x) xs fields ∧
        elements = fields.flatten) ↔
      ∃ es : List γ, xs = es.map value ∧ elements = es.flatMap encode := by
  constructor
  · rintro ⟨fields, hfields, rfl⟩
    induction hfields with
    | nil => exact ⟨[], rfl, rfl⟩
    | cons hx _ ih =>
        obtain ⟨e, rfl, rfl⟩ := hx
        obtain ⟨es, rfl, hes⟩ := ih
        exact ⟨e :: es, rfl, by rw [List.flatten_cons, hes]; rfl⟩
  · rintro ⟨es, rfl, rfl⟩
    refine ⟨es.map encode, ?_, rfl⟩
    induction es with
    | nil => exact .nil
    | cons e es ih => exact .cons ⟨e, rfl, rfl⟩ ih

end Readers

end FieldReader
end Library
end WallyIo
