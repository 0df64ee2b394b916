import Mathlib.Data.List.Induction
import Mathlib.Data.List.Perm.Basic
import Mathlib.Data.List.Nodup
import Mathlib.Order.Bounds.Basic

/-!
# The maximum under every key

Values arrive under keys, one after another.  A list keeps, for every key that has
been seen, the largest value that has arrived under it.

Main results:

- Theorem {lit}`mem_collect_iff`: an entry of the list is the greatest value that has
  arrived under its key.
- Theorem {lit}`nodup_keys_collect`: no key has two entries.
- Theorem {lit}`collect_perm`: up to the order of its entries, the list does not depend
  on the order of arrival.
- Theorem {lit}`map_collect`: keys may be renamed, as long as they stay apart.
-/

namespace WallyIo
namespace Library
namespace KeyedMaximum

variable {κ ν : Type*} [DecidableEq κ] [LinearOrder ν]

/-- A value arrives under a key: look for an entry of the key and raise it, or append a
new entry. -/
def raise (k : κ) (v : ν) : List (κ × ν) → List (κ × ν)
  | [] => [(k, v)]
  | (i, w) :: rest =>
      if i = k then (i, if w < v then v else w) :: rest else (i, w) :: raise k v rest

/-- The entries after all values have arrived. -/
def collect (arrivals : List (κ × ν)) : List (κ × ν) :=
  arrivals.foldl (fun entries a => raise a.1 a.2 entries) []

variable {k i : κ} {v u : ν} {entries : List (κ × ν)}

@[simp]
theorem collect_append_singleton (arrivals : List (κ × ν)) (a : κ × ν) :
    collect (arrivals ++ [a]) = raise a.1 a.2 (collect arrivals) := by
  simp [collect]

/-- The keys after one more arrival. -/
theorem keys_raise : (raise k v entries).map Prod.fst =
    if k ∈ entries.map Prod.fst then entries.map Prod.fst
    else entries.map Prod.fst ++ [k] := by
  induction entries with
  | nil => rfl
  | cons entry rest ih =>
      obtain ⟨i, w⟩ := entry
      by_cases hik : i = k
      · simp [raise, hik]
      · have hki : ¬ k = i := fun h => hik h.symm
        rw [raise, if_neg hik, List.map_cons, ih]
        by_cases hmem : k ∈ rest.map Prod.fst
        · simp [hmem]
        · simp [hmem, hki]

/-- The entries of other keys stay as they are. -/
theorem mem_raise_of_ne (h : i ≠ k) : (i, u) ∈ raise k v entries ↔ (i, u) ∈ entries := by
  induction entries with
  | nil => simp [raise, h]
  | cons entry rest ih =>
      obtain ⟨j, w⟩ := entry
      by_cases hjk : j = k
      · have hij : i ≠ j := fun hij => h (hij.trans hjk)
        simp [raise, hjk, h]
      · simp [raise, hjk, ih]

/-- The entry of the key is the maximum of what it was and the value. -/
theorem mem_raise_self (hnodup : (entries.map Prod.fst).Nodup) :
    (k, u) ∈ raise k v entries ↔
      (∃ w, (k, w) ∈ entries ∧ u = max w v) ∨ (k ∉ entries.map Prod.fst ∧ u = v) := by
  induction entries with
  | nil => simp [raise]
  | cons entry rest ih =>
      obtain ⟨j, w⟩ := entry
      rw [List.map_cons, List.nodup_cons] at hnodup
      by_cases hjk : j = k
      · subst hjk
        have hrest : ∀ w', (j, w') ∉ rest :=
          fun w' hmem => hnodup.1 (List.mem_map.mpr ⟨(j, w'), hmem, rfl⟩)
        have hmax : (if w < v then v else w) = max w v := by
          split
          · rename_i hlt
            exact (max_eq_right (le_of_lt hlt)).symm
          · rename_i hnlt
            exact (max_eq_left (not_lt.mp hnlt)).symm
        simp [raise, hmax, hrest]
      · have hkj : k ≠ j := fun h => hjk h.symm
        rw [raise, if_neg hjk, List.mem_cons, ih hnodup.2]
        simp [hkj]

/-- No key has two entries. -/
theorem nodup_keys_collect (arrivals : List (κ × ν)) :
    ((collect arrivals).map Prod.fst).Nodup := by
  induction arrivals using List.reverseRecOn with
  | nil => exact List.nodup_nil
  | append_singleton arrivals a ih =>
      rw [collect_append_singleton, keys_raise]
      split
      · exact ih
      · rename_i hfree
        rw [List.nodup_append_comm]
        exact List.nodup_cons.mpr ⟨hfree, ih⟩

/-- A key has an entry exactly if a value has arrived under it. -/
theorem mem_keys_collect_iff {arrivals : List (κ × ν)} :
    k ∈ (collect arrivals).map Prod.fst ↔ ∃ v, (k, v) ∈ arrivals := by
  induction arrivals using List.reverseRecOn with
  | nil => simp [collect]
  | append_singleton arrivals a ih =>
      obtain ⟨j, w⟩ := a
      rw [collect_append_singleton, keys_raise]
      have hsplit : (∃ v, (k, v) ∈ arrivals ++ [(j, w)]) ↔
          (∃ v, (k, v) ∈ arrivals) ∨ k = j := by
        simp only [List.mem_append, List.mem_singleton, Prod.mk.injEq]
        constructor
        · rintro ⟨v, hmem | ⟨rfl, -⟩⟩
          · exact Or.inl ⟨v, hmem⟩
          · exact Or.inr rfl
        · rintro (⟨v, hmem⟩ | rfl)
          · exact ⟨v, Or.inl hmem⟩
          · exact ⟨w, Or.inr ⟨rfl, rfl⟩⟩
      rw [hsplit, ← ih]
      split
      · rename_i hj
        constructor
        · exact Or.inl
        · rintro (hk | rfl)
          · exact hk
          · exact hj
      · rw [List.mem_append, List.mem_singleton]

/-- An entry is the greatest value that has arrived under its key. -/
theorem mem_collect_iff {arrivals : List (κ × ν)} :
    (k, v) ∈ collect arrivals ↔ IsGreatest {w | (k, w) ∈ arrivals} v := by
  induction arrivals using List.reverseRecOn generalizing v with
  | nil => simp [collect, IsGreatest]
  | append_singleton arrivals a ih =>
      obtain ⟨j, w⟩ := a
      rw [collect_append_singleton]
      by_cases hkj : k = j
      · subst hkj
        have hset : {u | (k, u) ∈ arrivals ++ [(k, w)]} = insert w {u | (k, u) ∈ arrivals} := by
          ext u
          simp [or_comm]
        rw [mem_raise_self (nodup_keys_collect arrivals), hset]
        constructor
        · rintro (⟨u, hu, rfl⟩ | ⟨hfree, rfl⟩)
          · rw [max_comm]
            exact (ih.mp hu).insert w
          · have hempty : {u | (k, u) ∈ arrivals} = ∅ := by
              ext u
              simp only [Set.mem_ofPred_eq, Set.mem_empty_iff_false, iff_false]
              intro hmem
              exact hfree (mem_keys_collect_iff.mpr ⟨u, hmem⟩)
            rw [hempty, insert_empty_eq]
            exact isGreatest_singleton
        · intro hgreatest
          by_cases hkey : k ∈ (collect arrivals).map Prod.fst
          · rcases List.mem_map.mp hkey with ⟨⟨i, u⟩, hmem, rfl⟩
            refine Or.inl ⟨u, hmem, ?_⟩
            rw [max_comm]
            exact hgreatest.unique ((ih.mp hmem).insert w)
          · refine Or.inr ⟨hkey, ?_⟩
            rcases hgreatest.1 with rfl | hmem
            · rfl
            · exact absurd (mem_keys_collect_iff.mpr ⟨v, hmem⟩) hkey
      · have hset : {u | (k, u) ∈ arrivals ++ [(j, w)]} = {u | (k, u) ∈ arrivals} := by
          ext u
          simp [hkj]
        rw [mem_raise_of_ne hkj, hset, ih]

/-- The order of arrival does not matter. -/
theorem collect_perm {xs ys : List (κ × ν)} (h : xs.Perm ys) :
    (collect xs).Perm (collect ys) := by
  have hnodup : ∀ zs : List (κ × ν), (collect zs).Nodup :=
    fun zs => (nodup_keys_collect zs).of_map
  rw [List.perm_ext_iff_of_nodup (hnodup xs) (hnodup ys)]
  rintro ⟨k, v⟩
  simp only [mem_collect_iff, h.mem_iff]

/-! ## Renaming keys -/

/-- An entry under another name of its key. -/
def renamed {κ' : Type*} (g : κ → κ') (e : κ × ν) : κ' × ν := (g e.1, e.2)

variable {κ' : Type*} [DecidableEq κ'] {g : κ → κ'}

/-- Renaming keys commutes with an arrival, if the key keeps apart from those of the entries. -/
theorem map_raise (hg : ∀ e ∈ entries, g e.1 = g k → e.1 = k) :
    (raise k v entries).map (renamed g) = raise (g k) v (entries.map (renamed g)) := by
  induction entries with
  | nil => rfl
  | cons entry rest ih =>
      obtain ⟨j, w⟩ := entry
      by_cases hjk : j = k
      · simp [raise, renamed, hjk]
      · have hne : g j ≠ g k := fun h => hjk (hg (j, w) (by simp) h)
        rw [raise, if_neg hjk, List.map_cons, List.map_cons,
          ih fun e he => hg e (List.mem_cons_of_mem _ he)]
        simp [raise, renamed, hne]

/-- Keys may be renamed, as long as those under which values arrive stay apart. -/
theorem map_collect {arrivals : List (κ × ν)}
    (hg : ∀ a ∈ arrivals, ∀ b ∈ arrivals, g a.1 = g b.1 → a.1 = b.1) :
    (collect arrivals).map (renamed g) = collect (arrivals.map (renamed g)) := by
  induction arrivals using List.reverseRecOn with
  | nil => rfl
  | append_singleton arrivals a ih =>
      have hseen : ∀ e ∈ collect arrivals, g e.1 = g a.1 → e.1 = a.1 := by
        intro e he hsame
        rcases mem_keys_collect_iff.mp (List.mem_map_of_mem he) with ⟨w, hw⟩
        exact hg (e.1, w) (List.mem_append_left _ hw) a (by simp) hsame
      rw [collect_append_singleton, map_raise hseen, List.map_append, List.map_singleton,
        collect_append_singleton,
        ih fun x hx y hy => hg x (List.mem_append_left _ hx) y (List.mem_append_left _ hy)]
      rfl

/-! ## What entries contribute -/

variable {β : Type*} {f : κ × ν → List β}

omit [DecidableEq κ] [LinearOrder ν] in
/-- An entry of a list does not have a key that no entry has. -/
theorem key_ne_of_not_mem {e : κ × ν} (hk : k ∉ entries.map Prod.fst) (he : e ∈ entries) :
    e.1 ≠ k := by
  rintro rfl
  exact hk (List.mem_map_of_mem he)

omit [DecidableEq κ] [LinearOrder ν] in
/-- Entries of other keys contribute nothing. -/
theorem flatMap_of_not_mem (hf : ∀ e ∈ entries, e.1 ≠ k → f e = [])
    (hk : k ∉ entries.map Prod.fst) : entries.flatMap f = [] := by
  rw [List.flatMap_eq_nil_iff]
  exact fun e he => hf e he (key_ne_of_not_mem hk he)

omit [DecidableEq κ] [LinearOrder ν] in
/-- If no key has two entries, what is contributed to a key comes from its entry. -/
theorem flatMap_of_mem (hnodup : (entries.map Prod.fst).Nodup)
    (hf : ∀ e ∈ entries, e.1 ≠ k → f e = []) (hmem : (k, v) ∈ entries) :
    entries.flatMap f = f (k, v) := by
  induction entries with
  | nil => cases hmem
  | cons entry rest ih =>
      rw [List.map_cons, List.nodup_cons] at hnodup
      have hrest : ∀ e ∈ rest, e.1 ≠ k → f e = [] :=
        fun e he => hf e (List.mem_cons_of_mem _ he)
      rw [List.flatMap_cons]
      rcases List.mem_cons.mp hmem with rfl | hmem
      · rw [flatMap_of_not_mem hrest hnodup.1, List.append_nil]
      · have hne : entry.1 ≠ k := (key_ne_of_not_mem hnodup.1 hmem).symm
        rw [hf entry (by simp) hne, List.nil_append]
        exact ih hnodup.2 hrest hmem

end KeyedMaximum
end Library
end WallyIo
