import Mathlib.Data.List.Sort
import Mathlib.Data.List.Destutter

/-! # Sorting without repetitions

A list that is sorted and then rid of the elements equal to the one before them holds the
same elements, each once and in increasing order.
-/
namespace DistinctSort
open List
variable {α : Type*} [LinearOrder α] {a b : α} {l : List α}

def sortDedup (l : List α) : List α :=
  (l.insertionSort (· ≤ ·)).destutter (· ≠ ·)

omit [LinearOrder α] in
/-- Dropping repetitions drops no element. -/
theorem mem_destutter'_of_mem [DecidableEq α] (h : a ∈ b :: l) : a ∈ l.destutter' (· ≠ ·) b := by
  induction l generalizing b with
  | nil => exact h
  | cons c l ih =>
    by_cases hbc : b ≠ c
    · rw [List.destutter'_cons_pos _ hbc]
      rcases mem_cons.mp h with rfl | hmem
      · exact mem_cons_self
      · exact mem_cons_of_mem _ (ih hmem)
    · -- the element dropped is the one before it
      rw [List.destutter'_cons_neg _ hbc]
      rw [← not_not.mp hbc, mem_cons, mem_cons] at h
      exact ih (mem_cons.mpr (h.elim .inl id))

omit [LinearOrder α] in
theorem mem_destutter_iff [DecidableEq α] : a ∈ l.destutter (· ≠ ·) ↔ a ∈ l := by
  refine ⟨fun h => (destutter_sublist _ l).subset h, fun h => ?_⟩
  cases l with
  | nil => cases h
  | cons b l => exact mem_destutter'_of_mem h

@[simp] theorem mem_sortDedup : a ∈ sortDedup l ↔ a ∈ l := by
  rw [sortDedup, mem_destutter_iff, mem_insertionSort]

omit [LinearOrder α] in
theorem isChain_lt [PartialOrder α] (hle : l.IsChain (· ≤ ·)) (hne : l.IsChain (· ≠ ·)) :
    l.IsChain (· < ·) := by
  induction l with
  | nil => exact .nil
  | cons a l ih =>
    cases l with
    | nil => exact .singleton a
    | cons b l =>
      obtain ⟨hab, hle⟩ := isChain_cons_cons.mp hle
      obtain ⟨hab', hne⟩ := isChain_cons_cons.mp hne
      exact isChain_cons_cons.mpr ⟨lt_of_le_of_ne hab hab', ih hle hne⟩

/-- A sorted list without equal neighbours increases. -/
theorem pairwise_lt_destutter (h : l.Pairwise (· ≤ ·)) :
    (l.destutter (· ≠ ·)).Pairwise (· < ·) := by
  have hle : (l.destutter (· ≠ ·)).IsChain (· ≤ ·) :=
    (h.sublist (destutter_sublist _ l)).isChain
  have hne : (l.destutter (· ≠ ·)).IsChain (· ≠ ·) := isChain_destutter _ l
  exact isChain_iff_pairwise.mp (isChain_lt hle hne)

theorem pairwise_sortDedup (l : List α) : (sortDedup l).Pairwise (· < ·) :=
  pairwise_lt_destutter (pairwise_insertionSort (· ≤ ·) l)

theorem nodup_sortDedup (l : List α) : (sortDedup l).Nodup :=
  (pairwise_sortDedup l).imp fun h => ne_of_lt h

theorem length_sortDedup (l : List α) : (sortDedup l).length = l.dedup.length :=
  ((perm_ext_iff_of_nodup (nodup_sortDedup l) (nodup_dedup l)).mpr fun a => by
    rw [mem_sortDedup, mem_dedup]).length_eq

theorem pairwise_lt_insertionSort (h : l.Nodup) :
    (l.insertionSort (· ≤ ·)).Pairwise (· < ·) := by
  have hle := pairwise_insertionSort (· ≤ ·) l
  have hnodup : (l.insertionSort (· ≤ ·)).Nodup :=
    (perm_insertionSort _ l).nodup_iff.mpr h
  exact hle.imp₂ (fun _ _ hle hne => lt_of_le_of_ne hle hne) hnodup

end DistinctSort
