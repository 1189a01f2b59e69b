import Mathlib.Data.List.Basic
import Mathlib.Algebra.Order.Ring.Int

/-! # Variable-length quantities in base 64

A natural number in digits of five bits, the lowest first, each digit but the last with 32
added to it; a signed number as the natural number with its sign in the lowest bit; and
digits as the bytes of the base 64 alphabet.
-/
namespace VlqCodec
open List

/-- The digits of a number. -/
def digits (n : Nat) : List Nat :=
  if n < 32 then [n] else (n % 32 + 32) :: digits (n / 32)
termination_by n
decreasing_by omega

theorem digits_of_lt {n : Nat} (h : n < 32) : digits n = [n] := by
  rw [digits, if_pos h]

theorem digits_of_le {n : Nat} (h : 32 ≤ n) : digits n = (n % 32 + 32) :: digits (n / 32) := by
  rw [digits, if_neg (by omega)]

theorem digits_ne_nil (n : Nat) : digits n ≠ [] := by
  by_cases h : n < 32
  · rw [digits_of_lt h]
    exact cons_ne_nil _ _
  · rw [digits_of_le (by omega)]
    exact cons_ne_nil _ _

theorem lt_of_mem_digits {n d : Nat} (h : d ∈ digits n) : d < 64 := by
  induction n using Nat.strongRecOn with
  | ind n ih =>
    by_cases hlt : n < 32
    · rw [digits_of_lt hlt] at h
      obtain rfl := mem_singleton.mp h
      omega
    · rw [digits_of_le (by omega)] at h
      rcases mem_cons.mp h with rfl | h
      · omega
      · exact ih (n / 32) (by omega) h

/-- A number with its sign in the lowest bit. -/
def foldSign (v : Int) : Nat := 2 * v.natAbs + if v < 0 then 1 else 0

theorem foldSign_half (v : Int) : foldSign v / 2 = v.natAbs := by
  unfold foldSign
  split <;> omega

theorem foldSign_odd (v : Int) : foldSign v % 2 = 1 ↔ v < 0 := by
  unfold foldSign
  split <;> omega

/-- The byte of a digit. -/
def base64Byte (d : Nat) : UInt8 :=
  if d < 26 then UInt8.ofNat (65 + d)
  else if d < 52 then UInt8.ofNat (97 + (d - 26))
  else if d < 62 then UInt8.ofNat (48 + (d - 52))
  else if d = 62 then 43
  else 47

/-- The bytes of a signed number. -/
def encode (v : Int) : List UInt8 := (digits (foldSign v)).map base64Byte

theorem encode_ne_nil (v : Int) : encode v ≠ [] := by
  unfold encode
  rw [Ne, map_eq_nil_iff]
  exact digits_ne_nil _

/-- The bytes of signed numbers, one after the other. -/
def encodeAll (vs : List Int) : List UInt8 := vs.flatMap encode

/-- A separator that is no digit's byte stands in no number. -/
theorem not_mem_encodeAll {separator : UInt8} (h : ∀ d, d < 64 → base64Byte d ≠ separator)
    (vs : List Int) : separator ∉ encodeAll vs := by
  intro hmem
  obtain ⟨v, -, hv⟩ := mem_flatMap.mp hmem
  obtain ⟨d, hd, heq⟩ := mem_map.mp hv
  exact h d (lt_of_mem_digits hd) heq

theorem encodeAll_ne_nil {vs : List Int} (h : vs ≠ []) : encodeAll vs ≠ [] := by
  obtain ⟨v, rest, rfl⟩ := exists_cons_of_ne_nil h
  rw [encodeAll, flatMap_cons]
  exact append_ne_nil_of_left_ne_nil (encode_ne_nil v) _

end VlqCodec
