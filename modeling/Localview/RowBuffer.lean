import Mathlib.Data.List.Basic
import Mathlib.Data.List.TakeDrop

/-! # Rows in a flat buffer

A list read in rows of one width (`rowAt`), and a part of it overwritten (`overwrite`).
Overwriting a row changes that row and no other.
-/
namespace RowBuffer
open List
variable {α : Type*} {l s : List α} {w r r' i : Nat}

/-- Row `r` of rows `w` long. -/
def rowAt (w : Nat) (l : List α) (r : Nat) : List α := (l.drop (r * w)).take w

/-- The list with `s` in place of what starts at `i`. -/
def overwrite (l : List α) (i : Nat) (s : List α) : List α :=
  l.take i ++ s ++ l.drop (i + s.length)

theorem length_overwrite (h : i + s.length ≤ l.length) :
    (overwrite l i s).length = l.length := by
  simp only [overwrite, length_append, length_take, length_drop]
  omega

theorem getElem?_overwrite (h : i + s.length ≤ l.length) (j : Nat) :
    (overwrite l i s)[j]? = if i ≤ j ∧ j < i + s.length then s[j - i]? else l[j]? := by
  have hfront : (l.take i).length = i := length_take_of_le (by omega)
  rw [overwrite, append_assoc]
  by_cases hbefore : j < i
  · rw [getElem?_append_left (by omega), getElem?_take_of_lt hbefore, if_neg (by omega)]
  · rw [getElem?_append_right (by omega), hfront]
    by_cases hin : j < i + s.length
    · rw [getElem?_append_left (by omega), if_pos ⟨by omega, hin⟩]
    · rw [getElem?_append_right (by omega), if_neg (by omega), getElem?_drop]
      congr 1
      omega

theorem getElem?_rowAt (w : Nat) (l : List α) (r j : Nat) :
    (rowAt w l r)[j]? = if j < w then l[r * w + j]? else none := by
  rw [rowAt, getElem?_take]
  split_ifs
  · rw [getElem?_drop]
  · rfl

theorem rowAt_overwrite_self (hs : s.length = w) (h : (r + 1) * w ≤ l.length) :
    rowAt w (overwrite l (r * w) s) r = s := by
  have hend : r * w + s.length ≤ l.length := by
    rw [hs, ← Nat.succ_mul]
    exact h
  refine ext_getElem? fun j => ?_
  rw [getElem?_rowAt, getElem?_overwrite hend]
  by_cases hj : j < w
  · rw [if_pos hj, if_pos ⟨by omega, by omega⟩, Nat.add_sub_cancel_left]
  · rw [if_neg hj, getElem?_eq_none (by omega)]

/-- Another row. -/
theorem rowAt_overwrite_of_ne (hs : s.length = w) (h : (r + 1) * w ≤ l.length) (hne : r' ≠ r) :
    rowAt w (overwrite l (r * w) s) r' = rowAt w l r' := by
  have hend : r * w + s.length ≤ l.length := by
    rw [hs, ← Nat.succ_mul]
    exact h
  refine ext_getElem? fun j => ?_
  rw [getElem?_rowAt, getElem?_rowAt, getElem?_overwrite hend]
  by_cases hj : j < w
  · have hout : ¬ (r * w ≤ r' * w + j ∧ r' * w + j < r * w + s.length) := by
      obtain hlt | hlt := Nat.lt_or_gt_of_ne hne
      · have := Nat.mul_le_mul_right w (Nat.succ_le_of_lt hlt)
        rw [Nat.succ_mul] at this
        omega
      · have := Nat.mul_le_mul_right w (Nat.succ_le_of_lt hlt)
        rw [Nat.succ_mul] at this
        omega
    rw [if_pos hj, if_pos hj, if_neg hout]
  · rw [if_neg hj, if_neg hj]

/-- Several rows overwritten. -/
theorem rowAt_overwrite_rows {n : Nat} (hs : s.length = n * w) (h : (i + n) * w ≤ l.length) :
    rowAt w (overwrite l (i * w) s) r =
      if i ≤ r ∧ r < i + n then rowAt w s (r - i) else rowAt w l r := by
  have hend : i * w + s.length ≤ l.length := by
    rw [hs, ← Nat.add_mul]
    exact h
  refine ext_getElem? fun j => ?_
  rw [getElem?_rowAt, getElem?_overwrite hend]
  by_cases hj : j < w
  · rw [if_pos hj]
    by_cases hin : i ≤ r ∧ r < i + n
    · have hstart := Nat.mul_le_mul_right w hin.1
      have hlast := Nat.mul_le_mul_right w (Nat.succ_le_of_lt hin.2)
      rw [Nat.succ_mul, Nat.add_mul] at hlast
      have hplace : r * w + j - i * w = (r - i) * w + j := by
        rw [Nat.sub_mul]
        omega
      rw [if_pos ⟨by omega, by omega⟩, if_pos hin, getElem?_rowAt, if_pos hj, hplace]
    · have hout : ¬ (i * w ≤ r * w + j ∧ r * w + j < i * w + s.length) := by
        rw [hs, ← Nat.add_mul]
        rintro ⟨hlow, hhigh⟩
        by_cases hlt : r < i
        · have hmul := Nat.mul_le_mul_right w (Nat.succ_le_of_lt hlt)
          rw [Nat.succ_mul] at hmul
          omega
        · have hmul := Nat.mul_le_mul_right w (show i + n ≤ r by omega)
          omega
      rw [if_neg hout, if_neg hin, getElem?_rowAt, if_pos hj]
  · rw [if_neg hj]
    split_ifs
    · rw [getElem?_rowAt, if_neg hj]
    · rw [getElem?_rowAt, if_neg hj]

/-- A row of some rows cut out. -/
theorem rowAt_slice {a n k : Nat} (hk : k < n) :
    rowAt w ((l.drop (a * w)).take (n * w)) k = rowAt w l (a + k) := by
  have hmul := Nat.mul_le_mul_right w (Nat.succ_le_of_lt hk)
  rw [Nat.succ_mul] at hmul
  rw [rowAt, rowAt, drop_take, drop_drop, take_take, Nat.add_mul,
    Nat.min_eq_left (by omega)]

/-- Some rows, each overwritten with the same. -/
def fillRows (w : Nat) (s : List α) (l : List α) (rows : List Nat) : List α :=
  rows.foldl (fun l r => overwrite l (r * w) s) l

theorem length_fillRows {rows : List Nat} {n : Nat} (hs : s.length = w) (hl : l.length = n * w)
    (hrows : ∀ r ∈ rows, r < n) : (fillRows w s l rows).length = n * w := by
  induction rows generalizing l with
  | nil => exact hl
  | cons r rows ih =>
    have hend := Nat.mul_le_mul_right w (Nat.succ_le_of_lt (hrows r mem_cons_self))
    rw [Nat.succ_mul] at hend
    refine ih ?_ fun r' hr' => hrows r' (mem_cons_of_mem _ hr')
    rw [length_overwrite (by omega), hl]

/-- The rows gone over are the same, the others as they were. -/
theorem rowAt_fillRows {rows : List Nat} {n : Nat} (hs : s.length = w) (hl : l.length = n * w)
    (hrows : ∀ r ∈ rows, r < n) (q : Nat) :
    rowAt w (fillRows w s l rows) q = if q ∈ rows then s else rowAt w l q := by
  induction rows generalizing l with
  | nil => rw [if_neg not_mem_nil]; rfl
  | cons r rows ih =>
    have hrest : ∀ r' ∈ rows, r' < n := fun r' hr' => hrows r' (mem_cons_of_mem _ hr')
    have hend : (r + 1) * w ≤ l.length := by
      rw [hl]
      exact Nat.mul_le_mul_right w (Nat.succ_le_of_lt (hrows r mem_cons_self))
    have hlength : (overwrite l (r * w) s).length = n * w := by
      rw [Nat.succ_mul] at hend
      rw [length_overwrite (by omega), hl]
    rw [fillRows, foldl_cons, ← fillRows, ih hlength hrest]
    by_cases hq : q ∈ rows
    · rw [if_pos hq, if_pos (mem_cons_of_mem _ hq)]
    · rw [if_neg hq]
      by_cases heq : q = r
      · rw [if_pos (heq ▸ mem_cons_self), heq]
        exact rowAt_overwrite_self hs hend
      · rw [if_neg (not_or.mpr ⟨heq, hq⟩ ∘ mem_cons.mp)]
        exact rowAt_overwrite_of_ne hs hend heq

/-- Buffers of as many rows are the same where their rows are. -/
theorem ext_rows {l l' : List α} {rows : Nat} (h : l.length = rows * w)
    (h' : l'.length = rows * w) (hrows : ∀ r, r < rows → rowAt w l r = rowAt w l' r) : l = l' := by
  refine ext_getElem? fun j => ?_
  by_cases hj : j < rows * w
  · have hw : 0 < w := Nat.pos_of_lt_mul_left hj
    have hrow := congrArg (·[j % w]?) (hrows (j / w) (Nat.div_lt_of_lt_mul (by
      rwa [Nat.mul_comm] at hj)))
    have hplace : j / w * w + j % w = j := Nat.div_add_mod' j w
    simp only [getElem?_rowAt, if_pos (Nat.mod_lt j hw), hplace] at hrow
    exact hrow
  · rw [getElem?_eq_none (by omega), getElem?_eq_none (by omega)]

end RowBuffer
