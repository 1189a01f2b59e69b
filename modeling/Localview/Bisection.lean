import Mathlib.Data.Nat.Find
import Mathlib.Order.Basic

/-! # Bisection between two points that answer differently

A bracket is a pair of points of which only the lower one gives a fixed answer.  Probing a point
between them leaves a narrower bracket on one of its sides, whatever the answers elsewhere are.
Where the answers switch once between the ends, every bracket inside them holds the switch.
-/
namespace Bisection
variable {β : Type} {answer : ℕ → β} {a : β} {low mid high : ℕ}

/-- The lower point answers `a` and the upper one does not. -/
structure Bracket (answer : ℕ → β) (a : β) (low high : ℕ) : Prop where
  lt : low < high
  low_eq : answer low = a
  high_ne : answer high ≠ a

/-- Up to `b` the answer is that of the lower end, from `b` on it is another one. -/
structure SwitchesAt (answer : ℕ → β) (low high b : ℕ) : Prop where
  above : low < b
  upto : b ≤ high
  before : ∀ x, low ≤ x → x < b → answer x = answer low
  after : ∀ x, b ≤ x → x ≤ high → answer x ≠ answer low

theorem Bracket.raise (h : Bracket answer a low high) (hmid : mid < high)
    (heq : answer mid = a) : Bracket answer a mid high :=
  ⟨hmid, heq, h.high_ne⟩

theorem Bracket.lower (h : Bracket answer a low high) (hmid : low < mid)
    (hne : answer mid ≠ a) : Bracket answer a low mid :=
  ⟨hmid, h.low_eq, hne⟩

/-- A midpoint of a bracket of at least two lies strictly inside. -/
theorem midpoint_between (low high : ℕ) (h : 2 ≤ high - low) :
    low < low + (high - low) / 2 ∧ low + (high - low) / 2 < high := by
  omega

/-- A switch between the ends of a bracket lies in every bracket inside them. -/
theorem SwitchesAt.within {b l r : ℕ} (hb : SwitchesAt answer low high b)
    (h : Bracket answer (answer low) l r) (hl : low ≤ l) (hr : r ≤ high) : l < b ∧ b ≤ r := by
  constructor
  · by_contra hle
    exact hb.after l (Nat.not_lt.mp hle) (Nat.le_trans (Nat.le_of_lt h.lt) hr) h.low_eq
  · by_contra hlt
    exact h.high_ne
      (hb.before r (Nat.le_trans hl (Nat.le_of_lt h.lt)) (Nat.not_le.mp hlt))

/-- Answers that never return to the lower end's switch exactly once inside a bracket. -/
theorem Bracket.exists_switchesAt (h : Bracket answer (answer low) low high)
    (hmono : ∀ x y, low ≤ x → x ≤ y → y ≤ high → answer y = answer low →
      answer x = answer low) : ∃ b, SwitchesAt answer low high b := by
  classical
  have hex : ∃ b, low ≤ b ∧ answer b ≠ answer low := ⟨high, Nat.le_of_lt h.lt, h.high_ne⟩
  -- the switch is the first point above the lower end with another answer
  obtain ⟨hle, hne⟩ := Nat.find_spec hex
  refine ⟨Nat.find hex, ?_, Nat.find_min' hex ⟨Nat.le_of_lt h.lt, h.high_ne⟩, ?_, ?_⟩
  · rcases Nat.lt_or_eq_of_le hle with hlt | heq
    · exact hlt
    · rw [← heq] at hne
      exact absurd rfl hne
  · intro x hx hlt
    by_contra hother
    exact Nat.find_min hex hlt ⟨hx, hother⟩
  · intro x hx hxhigh heq
    exact hne (hmono _ x hle hx hxhigh heq)

end Bisection
