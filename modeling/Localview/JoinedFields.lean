import Mathlib.Data.List.Basic
import Mathlib.Algebra.GroupWithZero.Nat

/-! # Fields joined by a separator

A list of words written one after the other with a separator between them.  The text has one
separator for each word but the first and those inside the words; so among lists of equal
length, the text of words without separators is the text of no other list
(`joined_inj`).
-/
namespace JoinedFields
open List
variable {α : Type*} {sep : α} {word : List α} {words words' : List (List α)}

/-- The words with the separator between them. -/
def joined (sep : α) : List (List α) → List α
  | [] => []
  | [word] => word
  | word :: next :: words => word ++ sep :: joined sep (next :: words)

theorem joined_cons (h : words ≠ []) :
    joined sep (word :: words) = word ++ sep :: joined sep words := by
  cases words with
  | nil => exact absurd rfl h
  | cons next words => rfl

/-- A separator inside a word may as well stand between this word and the next. -/
theorem joined_shift (front rest : List (List α)) (x y z : List α) :
    joined sep (front ++ (x ++ sep :: y) :: z :: rest) =
      joined sep (front ++ x :: (y ++ sep :: z) :: rest) := by
  induction front with
  | nil =>
    cases rest with
    | nil => simp [joined]
    | cons next rest => simp [joined]
  | cons word front ih =>
    rw [cons_append, cons_append, joined_cons (by simp), joined_cons (by simp), ih]

variable [DecidableEq α]

/-- The separators of the text. -/
theorem count_joined (h : words ≠ []) :
    (joined sep words).count sep + 1 = (words.map (List.count sep)).sum + words.length := by
  induction words with
  | nil => exact absurd rfl h
  | cons word words ih =>
    by_cases hlast : words = []
    · subst hlast
      simp [joined]
    · have hrest := ih hlast
      rw [joined_cons hlast, count_append, count_cons_self, map_cons,
        sum_cons, length_cons]
      omega

theorem sum_count_eq_zero : (words.map (List.count sep)).sum = 0 ↔ ∀ word ∈ words, sep ∉ word := by
  induction words with
  | nil => simp
  | cons word words ih =>
    rw [map_cons, sum_cons, Nat.add_eq_zero_iff, ih, count_eq_zero,
      forall_mem_cons]

/-- Where no word has the separator the words are read off the text. -/
theorem eq_of_joined_eq (hlen : words.length = words'.length)
    (hfree : ∀ word ∈ words, sep ∉ word) (hfree' : ∀ word ∈ words', sep ∉ word)
    (h : joined sep words = joined sep words') : words = words' := by
  induction words generalizing words' with
  | nil => exact (length_eq_zero_iff.mp hlen.symm).symm
  | cons word words ih =>
    cases words' with
    | nil => cases hlen
    | cons word' words' =>
      obtain ⟨hword, hwords⟩ := forall_mem_cons.mp hfree
      obtain ⟨hword', hwords'⟩ := forall_mem_cons.mp hfree'
      have hlen' : words.length = words'.length := Nat.succ.inj hlen
      by_cases hlast : words = []
      · subst hlast
        obtain rfl := length_eq_zero_iff.mp hlen'.symm
        rw [show word = word' from h]
      · have hlast' : words' ≠ [] := by
          rintro rfl
          exact hlast (length_eq_zero_iff.mp hlen')
        rw [joined_cons hlast, joined_cons hlast'] at h
        have hsplit := congrArg (List.splitOn sep) h
        rw [splitOn_append_cons_self_of_not_mem hword,
          splitOn_append_cons_self_of_not_mem hword'] at hsplit
        obtain ⟨rfl, -⟩ := List.cons.inj hsplit
        have hrest := (List.cons.inj (append_cancel_left h)).2
        rw [ih hlen' hwords hwords' hrest]

/-- **One reading.**  Of the lists of a length, the text of words without separators is the
text of one only. -/
theorem joined_inj (hlen : words.length = words'.length)
    (hfree : ∀ word ∈ words, sep ∉ word) (h : joined sep words = joined sep words') :
    words = words' := by
  by_cases hnil : words = []
  · subst hnil
    exact (length_eq_zero_iff.mp hlen.symm).symm
  · have hnil' : words' ≠ [] := by
      rintro rfl
      exact hnil (length_eq_zero_iff.mp hlen)
    -- equally many separators stand in both texts, and the first list has none of its own
    have hcount := @count_joined _ sep _ _ hnil
    have hcount' := @count_joined _ sep _ _ hnil'
    have hnone := sum_count_eq_zero.mpr hfree
    rw [h] at hcount
    have hnone' : (words'.map (List.count sep)).sum = 0 := by omega
    exact eq_of_joined_eq hlen hfree (sum_count_eq_zero.mp hnone') h

end JoinedFields
