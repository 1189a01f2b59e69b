import Localview.OrderedMap

/-! # Sets in order

A set as what it lists, ascending.  Collecting a list drops its repetitions and nothing
else, so the collected list is empty just when the list was.
-/

/-- A set whose members are listed in order. -/
structure OrderedSet (α : Type*) [LinearOrder α] where
  members : OrderedMap α Unit
deriving DecidableEq

namespace OrderedSet
open List OrderedMap
variable {α : Type*} [LinearOrder α]

def empty : OrderedSet α := ⟨OrderedMap.empty⟩

/-- The members, ascending. -/
def toList (s : OrderedSet α) : List α := s.members.entries.map Prod.fst

def insert (s : OrderedSet α) (a : α) : OrderedSet α := ⟨s.members.insert a ()⟩

def contains (s : OrderedSet α) (a : α) : Bool := decide (a ∈ s.toList)

/-- The set with every listed element put in. -/
def extend (s : OrderedSet α) (xs : List α) : OrderedSet α := xs.foldl insert s

def ofList (xs : List α) : OrderedSet α := empty.extend xs

/-- What one set lists and the other does not. -/
def difference (s t : OrderedSet α) : List α := s.toList.filter fun a => !t.contains a

/-- What both sets list. -/
def intersection (s t : OrderedSet α) : List α := s.toList.filter t.contains

theorem sorted_toList (s : OrderedSet α) : s.toList.Pairwise (· < ·) := s.members.sorted

@[simp] theorem toList_empty : (empty : OrderedSet α).toList = [] := rfl

@[simp] theorem contains_iff {s : OrderedSet α} {a : α} : s.contains a = true ↔ a ∈ s.toList :=
  decide_eq_true_iff

@[simp] theorem mem_insert {s : OrderedSet α} {a b : α} :
    b ∈ (s.insert a).toList ↔ b = a ∨ b ∈ s.toList := by
  have hread : ∀ (m : OrderedMap α Unit) (c : α),
      c ∈ m.entries.map Prod.fst ↔ m.get c ≠ none := by
    intro m c
    constructor
    · intro hc hnone
      obtain ⟨⟨_, v⟩, hmem, rfl⟩ := mem_map.mp hc
      rw [OrderedMap.get, lookup_eq_none_iff] at hnone
      have hne := hnone _ hmem
      rw [bne_iff_ne] at hne
      exact hne rfl
    · intro hread
      by_contra hc
      exact hread (lookup_eq_none hc)
  rw [toList, toList, hread, hread, insert, get_insert]
  by_cases h : b = a
  · simp [h]
  · simp [h]

@[simp] theorem mem_extend {s : OrderedSet α} {xs : List α} {a : α} :
    a ∈ (s.extend xs).toList ↔ a ∈ s.toList ∨ a ∈ xs := by
  induction xs generalizing s with
  | nil => simp [extend]
  | cons x xs ih =>
    have hstep : s.extend (x :: xs) = (s.insert x).extend xs := rfl
    rw [hstep, ih, mem_insert, mem_cons]
    tauto

@[simp] theorem mem_ofList {xs : List α} {a : α} : a ∈ (ofList xs).toList ↔ a ∈ xs := by
  simp [ofList]

variable {s t : OrderedSet α}

/-- Sets of the same members list the same. -/
theorem toList_eq_of_mem (h : ∀ a, a ∈ s.toList ↔ a ∈ t.toList) :
    s.toList = t.toList :=
  s.sorted_toList.eq_of_mem_iff t.sorted_toList fun a => h a

/-- Sets of the same members are equal. -/
theorem ext_mem (h : ∀ a, a ∈ s.toList ↔ a ∈ t.toList) : s = t := by
  have hpairs : ∀ u : OrderedSet α, u.toList.map (·, ()) = u.members.entries := by
    intro u
    rw [toList, map_map]
    exact map_id _
  obtain ⟨members⟩ := s
  obtain ⟨members'⟩ := t
  congr
  apply ext_entries
  rw [← hpairs ⟨members⟩, ← hpairs ⟨members'⟩, toList_eq_of_mem h]

/-- A set that lists all of another meets it in all that the other lists. -/
theorem intersection_eq_of_mem (h : ∀ a, a ∈ s.toList ↔ a ∈ t.toList) :
    s.intersection t = t.toList := by
  rw [intersection, filter_eq_self.mpr, toList_eq_of_mem h]
  intro a ha
  rw [contains_iff]
  exact (h a).mp ha

/-- Only the empty list is collected into nothing. -/
@[simp] theorem toList_ofList_eq_nil {xs : List α} : (ofList xs).toList = [] ↔ xs = [] := by
  rw [eq_nil_iff_forall_not_mem, eq_nil_iff_forall_not_mem]
  exact forall_congr' fun a => not_congr mem_ofList

theorem mem_difference {a : α} :
    a ∈ s.difference t ↔ a ∈ s.toList ∧ a ∉ t.toList := by
  rw [difference, mem_filter, Bool.not_eq_true', ← Bool.not_eq_true, contains_iff]

/-- Nothing is left over just when the other set lists it all. -/
theorem difference_eq_nil :
    s.difference t = [] ↔ ∀ a ∈ s.toList, a ∈ t.toList := by
  rw [eq_nil_iff_forall_not_mem]
  refine forall_congr' fun a => ?_
  rw [mem_difference, not_and_not_right]

end OrderedSet
