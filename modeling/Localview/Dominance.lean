import Mathlib.Algebra.Order.BigOperators.Group.List
import Mathlib.Algebra.Order.Field.Rat

/-! # Dominance by several measures

Options are compared by measures that each option may lack.  One dominates another if both
have every measure, none is lower and one is higher.  Dominance is a strict order, so a finite
list of options always has undominated ones, and it agrees with every sum of the measures with
weights that are not negative.
-/
namespace Dominance
open List
variable {α ι : Type}

/-- Among finitely many members some is below none, for an irreflexive transitive relation. -/
theorem exists_undominated {R : α → α → Prop} (hirrefl : ∀ a, ¬R a a)
    (htrans : ∀ a b c, R a b → R b c → R a c) {l : List α} (hne : l ≠ []) :
    ∃ a ∈ l, ∀ b ∈ l, ¬R b a := by
  induction l with
  | nil => exact absurd rfl hne
  | cons x l ih =>
    by_cases hnil : l = []
    · subst hnil
      refine ⟨x, mem_singleton_self x, ?_⟩
      intro b hb
      rw [mem_singleton.mp hb]
      exact hirrefl x
    obtain ⟨m, hm, hmax⟩ := ih hnil
    by_cases hx : R x m
    · -- the new member dominates the old one, and so is dominated by none
      refine ⟨x, mem_cons_self, ?_⟩
      intro b hb
      rcases mem_cons.mp hb with rfl | hb
      · exact hirrefl b
      · exact fun hbx => hmax b hb (htrans b x m hbx hx)
    · refine ⟨m, mem_cons_of_mem x hm, ?_⟩
      intro b hb
      rcases mem_cons.mp hb with rfl | hb
      · exact hx
      · exact hmax b hb

variable (measure : ι → α → Option ℚ) (criteria : List ι)

/-- Both have the measure and the second is not lower. -/
def AtLeast (a b : α) (i : ι) : Prop :=
  ∃ x y, measure i a = some x ∧ measure i b = some y ∧ x ≤ y

/-- Both have the measure and the second is higher. -/
def Above (a b : α) (i : ι) : Prop :=
  ∃ x y, measure i a = some x ∧ measure i b = some y ∧ x < y

def Dominates (a b : α) : Prop :=
  (∀ i ∈ criteria, AtLeast measure b a i) ∧ ∃ i ∈ criteria, Above measure b a i

def weightedSum (weight : ι → ℚ) (a : α) : ℚ :=
  (criteria.map fun i => weight i * (measure i a).getD 0).sum

variable {measure criteria} {a b c : α} {i : ι} {weight : ι → ℚ}

theorem AtLeast.trans (h : AtLeast measure c b i) (h' : AtLeast measure b a i) :
    AtLeast measure c a i := by
  obtain ⟨x, y, hx, hy, hxy⟩ := h
  obtain ⟨y', z, hy', hz, hyz⟩ := h'
  obtain rfl := Option.some.inj (hy.symm.trans hy')
  exact ⟨x, z, hx, hz, hxy.trans hyz⟩

theorem Above.trans_atLeast (h : AtLeast measure c b i) (h' : Above measure b a i) :
    Above measure c a i := by
  obtain ⟨x, y, hx, hy, hxy⟩ := h
  obtain ⟨y', z, hy', hz, hyz⟩ := h'
  obtain rfl := Option.some.inj (hy.symm.trans hy')
  exact ⟨x, z, hx, hz, lt_of_le_of_lt hxy hyz⟩

theorem not_above_self : ¬Above measure a a i := by
  rintro ⟨x, y, hx, hy, hxy⟩
  obtain rfl := Option.some.inj (hx.symm.trans hy)
  exact lt_irrefl x hxy

theorem not_dominates_self : ¬Dominates measure criteria a a := by
  rintro ⟨-, i, -, habove⟩
  exact not_above_self habove

theorem Dominates.trans (h : Dominates measure criteria a b)
    (h' : Dominates measure criteria b c) : Dominates measure criteria a c := by
  refine ⟨fun i hi => (h'.1 i hi).trans (h.1 i hi), ?_⟩
  obtain ⟨i, hi, habove⟩ := h.2
  exact ⟨i, hi, habove.trans_atLeast (h'.1 i hi)⟩

/-- A dominating option has every measure. -/
theorem Dominates.complete (h : Dominates measure criteria a b) :
    ∀ i ∈ criteria, (measure i a).isSome := by
  intro i hi
  obtain ⟨-, y, -, hy, -⟩ := h.1 i hi
  rw [hy]
  rfl

/-- A dominating option has at least the weighted sum of the other. -/
theorem Dominates.weightedSum_le (h : Dominates measure criteria a b)
    (hweight : ∀ i ∈ criteria, 0 ≤ weight i) :
    weightedSum measure criteria weight b ≤ weightedSum measure criteria weight a := by
  refine sum_le_sum fun i hi => ?_
  obtain ⟨x, y, hx, hy, hxy⟩ := h.1 i hi
  rw [hx, hy]
  exact mul_le_mul_of_nonneg_left hxy (hweight i hi)

/-- With positive weights it has more. -/
theorem Dominates.weightedSum_lt (h : Dominates measure criteria a b)
    (hweight : ∀ i ∈ criteria, 0 < weight i) :
    weightedSum measure criteria weight b < weightedSum measure criteria weight a := by
  refine sum_lt_sum _ _ (fun i hi => ?_) ?_
  · obtain ⟨x, y, hx, hy, hxy⟩ := h.1 i hi
    rw [hx, hy]
    exact mul_le_mul_of_nonneg_left hxy (hweight i hi).le
  · obtain ⟨i, hi, x, y, hx, hy, hxy⟩ := h.2
    refine ⟨i, hi, ?_⟩
    rw [hx, hy]
    exact mul_lt_mul_of_pos_left hxy (hweight i hi)

end Dominance
