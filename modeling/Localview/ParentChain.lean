import Mathlib.Data.List.Nodup
import Mathlib.Data.List.Range
import Mathlib.Data.List.Perm.Subperm

/-! # Following parents

Each node has at most one parent.  Following parents from a node either ends, or comes to
some node a second time (`Revisits`); and where the nodes that have parents are among
finitely many, it does one or the other within as many steps (`Fresh.length_le`).
-/
namespace ParentChain
open List
variable {α : Type} {parent : α → Option α} {start a b : α} {m n : Nat}

/-- The node that so many steps lead to. -/
def ancestor (parent : α → Option α) (start : α) : Nat → Option α
  | 0 => some start
  | n + 1 => (ancestor parent start n).bind parent

/-- Some node is come to twice. -/
def Revisits (parent : α → Option α) (start : α) : Prop :=
  ∃ m n a, m < n ∧ ancestor parent start m = some a ∧ ancestor parent start n = some a

theorem ancestor_succ (h : ancestor parent start n = some a) :
    ancestor parent start (n + 1) = parent a := by
  rw [ancestor, h, Option.bind_some]

/-- Before a node that is come to there are others. -/
theorem exists_ancestor_of_le (hle : m ≤ n) (h : ancestor parent start n = some b) :
    ∃ a, ancestor parent start m = some a := by
  induction n generalizing b with
  | zero =>
    obtain rfl : m = 0 := by omega
    exact ⟨b, h⟩
  | succ n ih =>
    by_cases hm : m = n + 1
    · exact ⟨b, hm ▸ h⟩
    · obtain ⟨a, ha, -⟩ := Option.bind_eq_some_iff.mp h
      exact ih (by omega) ha

/-- The steps so far lead to nodes that are all different. -/
def Fresh (parent : α → Option α) (start : α) (n : Nat) : Prop :=
  ∀ i j a, i < j → j ≤ n → ancestor parent start i = some a → ancestor parent start j ≠ some a

theorem fresh_zero : Fresh parent start 0 := by
  intro i j a hlt hle
  omega

theorem Fresh.succ (h : Fresh parent start n) (hb : ancestor parent start (n + 1) = some b)
    (hnew : ∀ i ≤ n, ancestor parent start i ≠ some b) : Fresh parent start (n + 1) := by
  intro i j a hlt hle hi hj
  by_cases hlast : j = n + 1
  · subst hlast
    obtain rfl := Option.some.inj (hb.symm.trans hj)
    exact hnew i (by omega) hi
  · exact h i j a hlt (by omega) hi hj

/-- Where the nodes so far are different and no further one is come to, none is revisited. -/
theorem Fresh.not_revisits (h : Fresh parent start n)
    (hend : ancestor parent start (n + 1) = none) : ¬Revisits parent start := by
  rintro ⟨i, j, a, hlt, hi, hj⟩
  by_cases hle : j ≤ n
  · exact h i j a hlt hle hi hj
  · have hle' : n + 1 ≤ j := by omega
    obtain ⟨b, hb⟩ := exists_ancestor_of_le hle' hj
    rw [hend] at hb
    cases hb

/-- Different nodes of a list are no more than it has. -/
theorem Fresh.length_le (h : Fresh parent start n) {nodes : List α}
    (hnodes : ∀ i ≤ n, ∃ a ∈ nodes, ancestor parent start i = some a) : n + 1 ≤ nodes.length := by
  have hnodup : ((List.range (n + 1)).map (ancestor parent start)).Nodup := by
    refine List.Nodup.map_on ?_ nodup_range
    intro i hi j hj heq
    rw [mem_range] at hi hj
    obtain ⟨a, -, ha⟩ := hnodes i (by omega)
    rcases Nat.lt_trichotomy i j with hlt | hsame | hlt
    · exact absurd (heq ▸ ha) (h i j a hlt (by omega) ha)
    · exact hsame
    · exact absurd ha (h j i a hlt (by omega) (heq ▸ ha))
  have hsubset : (List.range (n + 1)).map (ancestor parent start) ⊆ nodes.map some := by
    intro found hfound
    obtain ⟨i, hi, rfl⟩ := mem_map.mp hfound
    rw [mem_range] at hi
    obtain ⟨a, hmem, ha⟩ := hnodes i (by omega)
    rw [ha]
    exact mem_map_of_mem hmem
  have hle := (subperm_of_subset hnodup hsubset).length_le
  simpa using hle

/-- Each step up lowers the rank. -/
theorem rank_lt {rank : α → Nat} (hrank : ∀ a b, parent a = some b → rank b < rank a)
    (hlt : m < n) (hm : ancestor parent start m = some a)
    (hn : ancestor parent start n = some b) : rank b < rank a := by
  induction n generalizing b with
  | zero => omega
  | succ n ih =>
    obtain ⟨c, hc, hstep⟩ := Option.bind_eq_some_iff.mp hn
    have hup := hrank c b hstep
    by_cases hlast : m = n
    · subst hlast
      obtain rfl := Option.some.inj (hc.symm.trans hm)
      exact hup
    · have hbelow := ih (by omega) hc
      omega

/-- Where the parent always has the smaller rank, no node is revisited. -/
theorem not_revisits_of_rank {rank : α → Nat}
    (hrank : ∀ a b, parent a = some b → rank b < rank a) : ¬Revisits parent start := by
  rintro ⟨i, j, a, hlt, hi, hj⟩
  have hself := rank_lt hrank hlt hi hj
  omega

end ParentChain
