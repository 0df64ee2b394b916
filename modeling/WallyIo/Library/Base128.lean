import Mathlib.Data.List.Basic
import Mathlib.Data.Nat.Bitwise
import Mathlib.Tactic.Common
import Mathlib.Tactic.Ring

/-!
# Numbers to the base 128

A number is written as a sequence of bytes that carry seven bits each, least
significant digit first.  The upper bit of a byte tells whether another one
follows.

Main results:

- Theorem {lit}`scan_eq_some_iff`: scanning finds the number in front of a list of
  bytes.
- Theorem {lit}`scan_eq_none_iff`: it finds none exactly if every byte announces
  another one.
- Theorem {lit}`value_lt`: a bound on the numbers that have a given number of digits.
- Theorem {lit}`scan_encode`: a number that is written is found by scanning.
- Theorem {lit}`length_encode_le_iff`: how many digits a number has.
- Theorem {lit}`encode_value_eq_iff`: a sequence of bytes is what its number is
  written as exactly if it is not longer than that.
-/

namespace WallyIo
namespace Library
namespace Base128

/-- Whether another byte follows. -/
def continues (byte : UInt8) : Bool := byte &&& 0x80 ≠ 0

/-- The digit that a byte carries. -/
def digit (byte : UInt8) : Nat := (byte &&& 0x7F).toNat

/-- A sequence of bytes that ends where the last one says so. -/
def Terminated : List UInt8 → Prop
  | [] => False
  | byte :: rest => if continues byte then Terminated rest else rest = []

/-- The number that a sequence of bytes denotes. -/
def value : List UInt8 → Nat
  | [] => 0
  | byte :: rest => digit byte + 128 * value rest

/-- Find the number in front of a list of bytes, together with its length. -/
def scan : List UInt8 → Option (Nat × Nat)
  | [] => none
  | byte :: rest =>
      if continues byte then (scan rest).map fun r => (digit byte + 128 * r.1, r.2 + 1)
      else some (digit byte, 1)

/-- Write a number, least significant digit first. -/
def encode (n : Nat) : List UInt8 :=
  if n < 128 then [UInt8.ofNat n]
  else (UInt8.ofNat (n % 128) ||| 0x80) :: encode (n / 128)

instance decidableTerminated : (bytes : List UInt8) → Decidable (Terminated bytes)
  | [] => inferInstanceAs (Decidable False)
  | byte :: rest =>
      have := decidableTerminated rest
      inferInstanceAs (Decidable (if continues byte then Terminated rest else rest = []))

/-- The digit is the rest of the byte when it is divided by the base. -/
theorem digit_eq_mod (byte : UInt8) : digit byte = byte.toNat % 128 := by
  rw [digit, UInt8.toNat_and]
  exact Nat.and_two_pow_sub_one_eq_mod byte.toNat 7

theorem digit_lt (byte : UInt8) : digit byte < 128 := by
  rw [digit_eq_mod]
  exact Nat.mod_lt _ (by decide)

/-- Another byte follows exactly if the upper bit is set. -/
theorem continues_iff (byte : UInt8) : continues byte = true ↔ 128 ≤ byte.toNat := by
  have hlt := byte.toNat_lt
  have hand : (byte &&& 0x80).toNat = (byte.toNat.testBit 7).toNat * 2 ^ 7 := by
    rw [UInt8.toNat_and]
    exact Nat.and_two_pow byte.toNat 7
  rw [Nat.testBit_eq_decide_div_mod_eq] at hand
  simp only [continues, ne_eq, decide_not, Bool.not_eq_true', decide_eq_false_iff_not,
    ← UInt8.toNat_inj, hand]
  by_cases hbit : byte.toNat / 2 ^ 7 % 2 = 1
  · simp only [hbit, decide_true, Bool.toNat_true, UInt8.toNat_zero]
    omega
  · simp only [hbit, decide_false, Bool.toNat_false, UInt8.toNat_zero]
    omega

/-- A byte is determined by its digit and by whether another byte follows. -/
theorem eq_of_digit_eq {a b : UInt8} (hdigit : digit a = digit b)
    (hcontinues : continues a = continues b) : a = b := by
  have ha := a.toNat_lt
  have hb := b.toNat_lt
  have hbits : 128 ≤ a.toNat ↔ 128 ≤ b.toNat := by
    rw [← continues_iff, ← continues_iff, hcontinues]
  rw [digit_eq_mod, digit_eq_mod] at hdigit
  apply UInt8.toNat_inj.mp
  omega

/-- A number is bounded by the number of its digits. -/
theorem value_lt (bytes : List UInt8) : value bytes < 128 ^ bytes.length := by
  induction bytes with
  | nil => simp [value]
  | cons byte rest ih =>
      have hdigit := digit_lt byte
      simp only [value, List.length_cons, Nat.pow_succ]
      omega

/-- A terminated sequence is not empty. -/
theorem Terminated.length_pos {bytes : List UInt8} (h : Terminated bytes) :
    0 < bytes.length := by
  cases bytes with
  | nil => exact h.elim
  | cons => simp

/-- Scanning stops at the end of a terminated sequence. -/
theorem scan_append {bytes : List UInt8} (h : Terminated bytes) (rest : List UInt8) :
    scan (bytes ++ rest) = some (value bytes, bytes.length) := by
  induction bytes with
  | nil => exact h.elim
  | cons byte bytes ih =>
      cases hbyte : continues byte with
      | true =>
          have hrest : Terminated bytes := by simpa [Terminated, hbyte] using h
          simp [scan, hbyte, ih hrest, value]
      | false =>
          have hnil : bytes = [] := by simpa [Terminated, hbyte] using h
          simp [scan, hbyte, hnil, value]

/-- Scanning finds the number in front of a list of bytes. -/
theorem scan_eq_some_iff {bytes : List UInt8} {n k : Nat} :
    scan bytes = some (n, k) ↔
      ∃ front rest, bytes = front ++ rest ∧ Terminated front ∧ value front = n ∧
        front.length = k := by
  constructor
  · intro h
    induction bytes generalizing n k with
    | nil => simp [scan] at h
    | cons byte bytes ih =>
        cases hbyte : continues byte with
        | true =>
            simp only [scan, hbyte, if_true, Option.map_eq_some_iff, Prod.mk.injEq] at h
            obtain ⟨r, hr, rfl, rfl⟩ := h
            obtain ⟨front, rest, rfl, hfront, hvalue, hlength⟩ := ih hr
            refine ⟨byte :: front, rest, rfl, ?_, ?_, ?_⟩
            · simpa [Terminated, hbyte] using hfront
            · simp [value, hvalue]
            · simp [hlength]
        | false =>
            simp only [scan, hbyte, Bool.false_eq_true, if_false, Option.some.injEq,
              Prod.mk.injEq] at h
            obtain ⟨rfl, rfl⟩ := h
            exact ⟨[byte], bytes, rfl, by simp [Terminated, hbyte], by simp [value], rfl⟩
  · rintro ⟨front, rest, rfl, hfront, rfl, rfl⟩
    exact scan_append hfront rest

/-- Scanning finds nothing exactly if every byte announces another one. -/
theorem scan_eq_none_iff {bytes : List UInt8} :
    scan bytes = none ↔ ∀ byte ∈ bytes, continues byte = true := by
  induction bytes with
  | nil => simp [scan]
  | cons byte bytes ih =>
      cases hbyte : continues byte with
      | true => simp [scan, hbyte, ih]
      | false => simp [scan, hbyte]

/-- More bytes do not change the number that has been found. -/
theorem scan_append_of_eq_some {bytes : List UInt8} {r : Nat × Nat} (h : scan bytes = some r)
    (rest : List UInt8) : scan (bytes ++ rest) = some r := by
  obtain ⟨n, k⟩ := r
  obtain ⟨front, tail, rfl, hfront, rfl, rfl⟩ := scan_eq_some_iff.mp h
  rw [List.append_assoc]
  exact scan_append hfront (tail ++ rest)

/-- No number is found in a part of a terminated sequence. -/
theorem scan_eq_none_of_prefix {bytes front : List UInt8} (h : Terminated bytes)
    (hfront : front <+: bytes) (hne : front ≠ bytes) : scan front = none := by
  cases hscan : scan front with
  | none => rfl
  | some r =>
      obtain ⟨n, k⟩ := r
      obtain ⟨rest, rfl⟩ := hfront
      have hlonger := scan_append_of_eq_some hscan rest
      have hwhole := scan_append h []
      rw [List.append_nil, hlonger, Option.some.injEq, Prod.mk.injEq] at hwhole
      obtain ⟨part, tail, hpart, -, -, hlength⟩ := scan_eq_some_iff.mp hscan
      have hbound := congrArg List.length hpart
      have hk := hwhole.2
      rw [List.length_append] at hbound hk
      have hrest : rest = [] := List.eq_nil_of_length_eq_zero (by omega)
      exact absurd (by rw [hrest, List.append_nil]) hne

/-! ## Writing numbers -/

/-- A byte that carries a digit, without or with the announcement of another byte. -/
theorem digit_ofNat {d : Nat} (h : d < 128) :
    digit (UInt8.ofNat d) = d ∧ continues (UInt8.ofNat d) = false ∧
      digit (UInt8.ofNat d ||| 0x80) = d ∧ continues (UInt8.ofNat d ||| 0x80) = true := by
  have hall : ∀ k : Fin 128,
      digit (UInt8.ofNat k) = k ∧ continues (UInt8.ofNat k) = false ∧
        digit (UInt8.ofNat k ||| 0x80) = k ∧ continues (UInt8.ofNat k ||| 0x80) = true := by
    decide
  exact hall ⟨d, h⟩

theorem encode_of_lt {n : Nat} (h : n < 128) : encode n = [UInt8.ofNat n] := by
  rw [encode, if_pos h]

theorem encode_of_le {n : Nat} (h : 128 ≤ n) :
    encode n = (UInt8.ofNat (n % 128) ||| 0x80) :: encode (n / 128) := by
  rw [encode, if_neg (by omega)]

/-- A number that is written denotes itself. -/
theorem encode_spec (n : Nat) : Terminated (encode n) ∧ value (encode n) = n := by
  induction n using encode.induct with
  | case1 n hlt =>
      obtain ⟨hdigit, hcontinues, -⟩ := digit_ofNat hlt
      rw [encode_of_lt hlt]
      simp [Terminated, value, hdigit, hcontinues]
  | case2 n hle ih =>
      obtain ⟨-, -, hdigit, hcontinues⟩ := digit_ofNat (Nat.mod_lt n (by decide : 0 < 128))
      rw [encode_of_le (by omega)]
      refine ⟨by simpa [Terminated, hcontinues] using ih.1, ?_⟩
      rw [value, hdigit, ih.2]
      omega

/-- What is written is found by scanning. -/
theorem scan_encode (n : Nat) (rest : List UInt8) :
    scan (encode n ++ rest) = some (n, (encode n).length) := by
  have hscan := scan_append (encode_spec n).1 rest
  rwa [(encode_spec n).2] at hscan

/-- A number has as many digits as are needed. -/
theorem length_encode_le_iff (n k : Nat) : (encode n).length ≤ k + 1 ↔ n < 128 ^ (k + 1) := by
  induction k generalizing n with
  | zero =>
      by_cases hlt : n < 128
      · simp [encode_of_lt hlt, hlt]
      · have hpos := (encode_spec (n / 128)).1.length_pos
        rw [encode_of_le (by omega), List.length_cons]
        constructor
        · intro h
          omega
        · intro h
          omega
  | succ k ih =>
      have hpow : (128 : Nat) ^ (k + 1 + 1) = 128 * 128 ^ (k + 1) := by ring
      by_cases hlt : n < 128
      · have hone : 0 < (128 : Nat) ^ (k + 1) := Nat.pow_pos (by decide)
        rw [encode_of_lt hlt, hpow]
        constructor
        · intro _
          omega
        · intro _
          simp
      · rw [encode_of_le (by omega), List.length_cons, Nat.succ_le_succ_iff, ih, hpow,
          Nat.div_lt_iff_lt_mul (by decide), Nat.mul_comm]

/-! ## As few digits as possible -/

/-- Sequences of the same length that denote the same number are equal. -/
theorem eq_of_value_eq {xs ys : List UInt8} (hxs : Terminated xs) (hys : Terminated ys)
    (hlength : xs.length = ys.length) (hvalue : value xs = value ys) : xs = ys := by
  induction xs generalizing ys with
  | nil => exact hxs.elim
  | cons x xs ih =>
      cases ys with
      | nil => exact hys.elim
      | cons y ys =>
          have hx := digit_lt x
          have hy := digit_lt y
          rw [value, value] at hvalue
          rw [List.length_cons, List.length_cons, Nat.succ.injEq] at hlength
          have hdigit : digit x = digit y := by omega
          -- the lengths tell which byte is the last one
          cases hcx : continues x with
          | true =>
              have hxs' : Terminated xs := by simpa [Terminated, hcx] using hxs
              cases hcy : continues y with
              | true =>
                  have hys' : Terminated ys := by simpa [Terminated, hcy] using hys
                  rw [eq_of_digit_eq hdigit (hcx.trans hcy.symm),
                    ih hxs' hys' hlength (by omega)]
              | false =>
                  have hnil : ys = [] := by simpa [Terminated, hcy] using hys
                  have hpos := hxs'.length_pos
                  rw [hlength, hnil] at hpos
                  cases hpos
          | false =>
              have hnil : xs = [] := by simpa [Terminated, hcx] using hxs
              have hnil' : ys = [] := by
                apply List.eq_nil_of_length_eq_zero
                rw [← hlength, hnil, List.length_nil]
              have hcy : continues y = false := by
                rw [hnil'] at hys
                by_contra hcy
                simp [Terminated, hcy] at hys
              rw [eq_of_digit_eq hdigit (hcx.trans hcy.symm), hnil, hnil']

/-- A number is written with as few bytes as possible. -/
theorem length_encode_value_le {bytes : List UInt8} (h : Terminated bytes) :
    (encode (value bytes)).length ≤ bytes.length := by
  have hpos := h.length_pos
  have hlength : bytes.length = bytes.length - 1 + 1 := by omega
  rw [hlength, length_encode_le_iff, ← hlength]
  exact value_lt bytes

/-- A sequence is what its number is written as exactly if it is not longer. -/
theorem encode_value_eq_iff {bytes : List UInt8} (h : Terminated bytes) :
    encode (value bytes) = bytes ↔ bytes.length = (encode (value bytes)).length := by
  constructor
  · intro heq
    rw [heq]
  · intro hlength
    obtain ⟨hterminated, hvalue⟩ := encode_spec (value bytes)
    exact eq_of_value_eq hterminated h hlength.symm hvalue

end Base128
end Library
end WallyIo
