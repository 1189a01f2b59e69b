import Mathlib.Order.Lattice
import Mathlib.Data.List.Basic

/-! # Lookups in a list that is sorted by a key

A list in the order of its elements' keys may hold a key several times.  Two searches are
described by where they end: the last element at or below a key (`IsNearest`), which is the
last of the greatest key that is not above it, and the first element at a key (`IsFirstAt`).
They end at the same key exactly where the key is there.
-/
namespace SortedLookup
open List
variable {α κ : Type} [LinearOrder κ] {key : α → κ} {l : List α} {k : κ} {a b : α}

/-- Later elements have keys at least as great. -/
def Ascending (key : α → κ) (l : List α) : Prop :=
  l.Pairwise fun earlier later => key earlier ≤ key later

/-- The last element at or below a key; what stands before it is not above it. -/
def IsNearest (key : α → κ) (l : List α) (k : κ) (a : α) : Prop :=
  ∃ before after, l = before ++ a :: after ∧ key a ≤ k ∧
    (∀ b ∈ before, key b ≤ key a) ∧ ∀ b ∈ after, k < key b

/-- The first element at its key. -/
def IsFirstAt (key : α → κ) (l : List α) (a : α) : Prop :=
  ∃ before after, l = before ++ a :: after ∧ ∀ b ∈ before, key b ≠ key a

/-- The last element at its key. -/
def IsLastAt (key : α → κ) (l : List α) (a : α) : Prop :=
  ∃ before after, l = before ++ a :: after ∧ ∀ b ∈ after, key b ≠ key a

theorem Ascending.split {before after : List α} (h : Ascending key (before ++ a :: after)) :
    (∀ b ∈ before, key b ≤ key a) ∧ ∀ b ∈ after, key a ≤ key b := by
  obtain ⟨-, hafter, hbetween⟩ := pairwise_append.mp h
  exact ⟨fun b hb => hbetween b hb a mem_cons_self, (pairwise_cons.mp hafter).1⟩

omit [LinearOrder κ] in
theorem IsFirstAt.mem (h : IsFirstAt key l a) : a ∈ l := by
  obtain ⟨before, after, rfl, -⟩ := h
  exact mem_append_right before mem_cons_self

theorem IsNearest.key_le (h : IsNearest key l k a) : key a ≤ k := by
  obtain ⟨-, -, -, hle, -, -⟩ := h
  exact hle

/-- No element at or below the key has a greater one. -/
theorem IsNearest.greatest (h : IsNearest key l k a) (hb : b ∈ l) (hle : key b ≤ k) :
    key b ≤ key a := by
  obtain ⟨before, after, rfl, -, hbefore, hafter⟩ := h
  rcases mem_append.mp hb with hb | hb
  · exact hbefore b hb
  rcases mem_cons.mp hb with rfl | hb
  · exact le_rfl
  · exact absurd hle (not_le.mpr (hafter b hb))

/-- The nearest element to a key that is there is the last one at it. -/
theorem IsNearest.isLastAt (h : IsNearest key l k a) (hb : b ∈ l) (hkey : key b = k) :
    key a = k ∧ IsLastAt key l a := by
  have heq : key a = k := le_antisymm h.key_le (hkey ▸ h.greatest hb hkey.le)
  obtain ⟨before, after, rfl, -, -, hafter⟩ := h
  refine ⟨heq, before, after, rfl, fun c hc hsame => ?_⟩
  exact absurd (hafter c hc) (by rw [hsame, heq]; exact lt_irrefl k)

theorem IsLastAt.isNearest (h : IsLastAt key l a) (hl : Ascending key l) :
    IsNearest key l (key a) a := by
  obtain ⟨before, after, rfl, hafter⟩ := h
  obtain ⟨hbefore, hge⟩ := hl.split
  exact ⟨before, after, rfl, le_rfl, hbefore,
    fun b hb => lt_of_le_of_ne (hge b hb) (hafter b hb).symm⟩

/-- What is taken while it is at or below a key ends with the nearest element. -/
theorem getLast?_takeWhile_eq_some (hl : Ascending key l) :
    (l.takeWhile fun b => key b ≤ k).getLast? = some a ↔ IsNearest key l k a := by
  constructor
  · intro h
    obtain ⟨before, htaken⟩ := getLast?_eq_some_iff.mp h
    have hsplit : l = before ++ a :: l.dropWhile fun b => key b ≤ k := by
      calc l = (l.takeWhile fun b => key b ≤ k) ++ l.dropWhile fun b => key b ≤ k :=
            takeWhile_append_dropWhile.symm
        _ = before ++ a :: l.dropWhile fun b => key b ≤ k := by
            rw [htaken, append_assoc, singleton_append]
    have hle : key a ≤ k := by
      have hmem : a ∈ l.takeWhile fun b => key b ≤ k := by
        rw [htaken]
        exact mem_append_right before mem_cons_self
      exact of_decide_eq_true (all_eq_true.mp all_takeWhile a hmem)
    rw [hsplit] at hl
    refine ⟨before, _, hsplit, hle, hl.split.1, fun b hb => ?_⟩
    -- the first that is not taken is above the key, and the rest is not below it
    cases hdropped : l.dropWhile fun b => key b ≤ k with
    | nil =>
      rw [hdropped] at hb
      cases hb
    | cons first rest =>
      have hfirst : k < key first := by
        have hnot := head?_dropWhile_not (fun b => decide (key b ≤ k)) l
        rw [hdropped] at hnot
        simpa using hnot
      rw [hdropped] at hb hl
      rcases mem_cons.mp hb with rfl | hb
      · exact hfirst
      · have hrest := (pairwise_cons.mp (pairwise_append.mp hl).2.1).2
        exact lt_of_lt_of_le hfirst ((pairwise_cons.mp hrest).1 b hb)
  · rintro ⟨before, after, rfl, hle, hbefore, hafter⟩
    have hrest : (after.takeWhile fun b => key b ≤ k) = [] := by
      cases after with
      | nil => rfl
      | cons first rest =>
        rw [takeWhile_cons, if_neg]
        simpa using hafter first mem_cons_self
    rw [takeWhile_append_of_pos fun b hb => decide_eq_true (le_trans (hbefore b hb) hle),
      takeWhile_cons, if_pos (decide_eq_true hle), hrest]
    exact getLast?_concat

/-- Nothing is taken where everything is above the key. -/
theorem getLast?_takeWhile_eq_none (hl : Ascending key l) :
    (l.takeWhile fun b => key b ≤ k).getLast? = none ↔ ∀ b ∈ l, k < key b := by
  rw [getLast?_eq_none_iff]
  cases l with
  | nil => exact iff_of_true rfl nofun
  | cons first rest =>
    by_cases hle : key first ≤ k
    · rw [takeWhile_cons, if_pos (decide_eq_true hle)]
      exact iff_of_false (cons_ne_nil _ _)
        fun h => absurd (h first mem_cons_self) (not_lt.mpr hle)
    · rw [takeWhile_cons, if_neg (by simpa using hle)]
      refine iff_of_true rfl fun b hb => ?_
      rw [not_le] at hle
      rcases mem_cons.mp hb with rfl | hb
      · exact hle
      · exact lt_of_lt_of_le hle ((pairwise_cons.mp hl).1 b hb)

/-- The first element with a key is found. -/
theorem find?_eq_some : l.find? (fun b => key b = k) = some a ↔ key a = k ∧ IsFirstAt key l a := by
  rw [find?_eq_some_iff_append]
  constructor
  · rintro ⟨hkey, before, after, rfl, hbefore⟩
    have heq : key a = k := of_decide_eq_true hkey
    refine ⟨heq, before, after, rfl, fun b hb => ?_⟩
    rw [heq]
    simpa using hbefore b hb
  · rintro ⟨rfl, before, after, rfl, hbefore⟩
    exact ⟨decide_eq_true rfl, before, after, rfl, fun b hb => by simpa using hbefore b hb⟩

end SortedLookup
