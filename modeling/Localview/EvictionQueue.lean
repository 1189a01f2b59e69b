import Mathlib.Data.List.Infix
import Mathlib.Algebra.Order.BigOperators.Group.List
import Mathlib.Algebra.GroupWithZero.Nat

/-! # Queues in order of use

What a cache holds, the oldest use first.  `trim` is eviction: the oldest go while the
rest is over some limit, so what stays is a suffix of what there was, and the last one
stays where it fits alone.  `lastUse` reads off the labels of a run when a key was last
used.
-/
namespace RecencyQueue
open List

/-! ## Eviction -/

section
variable {α : Type*} {p : List α → Bool} {l : List α} {a : α}

/-- The oldest go while the rest is over. -/
def trim (p : List α → Bool) : List α → List α
  | [] => []
  | a :: rest => if p (a :: rest) then trim p rest else a :: rest

theorem trim_cons (p : List α → Bool) (a : α) (rest : List α) :
    trim p (a :: rest) = if p (a :: rest) then trim p rest else a :: rest := rfl

theorem trim_suffix : trim p l <:+ l := by
  induction l with
  | nil => exact suffix_rfl
  | cons a rest ih =>
    rw [trim_cons]
    split_ifs
    · exact ih.trans (suffix_cons a rest)
    · exact suffix_rfl

/-- Eviction stops where the rest is within the limit. -/
theorem not_over_trim (hnil : p [] = false) : p (trim p l) = false := by
  induction l with
  | nil => exact hnil
  | cons a rest ih =>
    rw [trim_cons]
    by_cases hover : p (a :: rest) = true
    · rw [if_pos hover]
      exact ih
    · rw [if_neg hover]
      exact Bool.eq_false_iff.mpr hover

theorem trim_of_not_over (h : p l = false) : trim p l = l := by
  cases l with
  | nil => rfl
  | cons a rest => rw [trim_cons, h, if_neg Bool.false_ne_true]

/-- The newest stays where it fits alone. -/
theorem mem_trim_concat (h : p [a] = false) : a ∈ trim p (l ++ [a]) := by
  induction l with
  | nil =>
    rw [nil_append, trim_of_not_over h]
    exact mem_singleton_self a
  | cons b rest ih =>
    rw [cons_append, trim_cons]
    split_ifs
    · exact ih
    · exact mem_cons_of_mem b (mem_append_right rest (mem_singleton_self a))

/-- What went is older than what stays. -/
theorem trim_older {r : α → α → Prop} (hsorted : l.Pairwise r) {b : α} (ha : a ∈ l)
    (hgone : a ∉ trim p l) (hb : b ∈ trim p l) : r a b := by
  obtain ⟨dropped, hdropped⟩ := trim_suffix (p := p) (l := l)
  rw [← hdropped] at hsorted ha
  rw [pairwise_append] at hsorted
  rcases mem_append.mp ha with ha | ha
  · exact hsorted.2.2 a ha b hb
  · exact absurd ha hgone

end

/-! ## Eviction with a running total -/

section
variable {α : Type*} {limit : Nat} {size size' : α → Nat} {l : List α} {a : α} {used : Nat}

/-- The oldest go off the list and off the total while the total is over the limit. -/
def shrink (limit : Nat) (size : α → Nat) : List α → Nat → List α × Nat
  | [], used => ([], used)
  | a :: rest, used =>
      if used ≤ limit then (a :: rest, used) else shrink limit size rest (used - size a)

theorem shrink_cons (limit : Nat) (size : α → Nat) (a : α) (rest : List α) (used : Nat) :
    shrink limit size (a :: rest) used =
      if used ≤ limit then (a :: rest, used) else shrink limit size rest (used - size a) := rfl

theorem shrink_suffix : (shrink limit size l used).1 <:+ l := by
  induction l generalizing used with
  | nil => exact suffix_rfl
  | cons a rest ih =>
    rw [shrink_cons]
    split_ifs
    · exact suffix_rfl
    · exact ih.trans (suffix_cons a rest)

theorem shrink_congr (limit used : Nat) (h : ∀ a ∈ l, size a = size' a) :
    shrink limit size l used = shrink limit size' l used := by
  induction l generalizing used with
  | nil => rfl
  | cons a rest ih =>
    rw [shrink_cons, shrink_cons, h a mem_cons_self]
    split_ifs
    · rfl
    · exact ih _ fun b hb => h b (mem_cons_of_mem a hb)

/-- The total ends within the limit, or there is nothing left to take. -/
theorem shrink_within (limit : Nat) (size : α → Nat) (l : List α) (used : Nat) :
    (shrink limit size l used).2 ≤ limit ∨ (shrink limit size l used).1 = [] := by
  induction l generalizing used with
  | nil => exact .inr rfl
  | cons a rest ih =>
    rw [shrink_cons]
    by_cases h : used ≤ limit
    · rw [if_pos h]
      exact .inl h
    · rw [if_neg h]
      exact ih _

theorem shrink_of_le (h : used ≤ limit) : shrink limit size l used = (l, used) := by
  cases l with
  | nil => rfl
  | cons a rest => rw [shrink_cons, if_pos h]

theorem shrink_le : (shrink limit size l used).2 ≤ used := by
  induction l generalizing used with
  | nil => exact le_rfl
  | cons a rest ih =>
    rw [shrink_cons]
    split_ifs
    · exact le_rfl
    · exact ih.trans (Nat.sub_le _ _)

/-- A total of at most the sizes and some more stays so. -/
theorem shrink_le_sum {c : Nat} (h : used ≤ (l.map size).sum + c) :
    (shrink limit size l used).2 ≤ ((shrink limit size l used).1.map size).sum + c := by
  induction l generalizing used with
  | nil => exact h
  | cons a rest ih =>
    rw [shrink_cons]
    split_ifs
    · exact h
    · rw [map_cons, sum_cons] at h
      exact ih (by omega)

/-- The total of the sizes stays the total. -/
theorem shrink_eq_sum (h : used = (l.map size).sum) :
    (shrink limit size l used).2 = ((shrink limit size l used).1.map size).sum := by
  induction l generalizing used with
  | nil => exact h
  | cons a rest ih =>
    rw [shrink_cons]
    split_ifs
    · exact h
    · rw [map_cons, sum_cons] at h
      exact ih (by omega)

/-- What comes after is not reached where the rest was enough. -/
theorem shrink_concat (h : (shrink limit size l used).2 ≤ limit) :
    shrink limit size (l ++ [a]) used =
      ((shrink limit size l used).1 ++ [a], (shrink limit size l used).2) := by
  induction l generalizing used with
  | nil => exact if_pos h
  | cons b rest ih =>
    rw [cons_append, shrink_cons, shrink_cons]
    rw [shrink_cons] at h
    by_cases hused : used ≤ limit
    · simp only [if_pos hused, cons_append]
    · simp only [if_neg hused] at h ⊢
      exact ih h

end

section
variable {L κ : Type*} [DecidableEq κ] {f : L → Option κ} {tr : List L} {l : L} {k : κ}

/-- One past the place of the last label that uses the key, zero where none does. -/
def lastUse (f : L → Option κ) (tr : List L) (k : κ) : Nat :=
  tr.length - tr.reverse.findIdx fun l => f l = some k

theorem lastUse_le : lastUse f tr k ≤ tr.length := Nat.sub_le _ _

theorem lastUse_snoc_self (h : f l = some k) : lastUse f (tr ++ [l]) k = tr.length + 1 := by
  rw [lastUse, reverse_append, reverse_singleton, singleton_append,
    findIdx_cons, decide_eq_true h, length_append]
  rfl

theorem lastUse_snoc_of_ne (h : f l ≠ some k) :
    lastUse f (tr ++ [l]) k = lastUse f tr k := by
  rw [lastUse, lastUse, reverse_append, reverse_singleton, singleton_append,
    findIdx_cons, decide_eq_false h, length_append, length_singleton]
  dsimp only [cond_false]
  omega

end
end RecencyQueue
