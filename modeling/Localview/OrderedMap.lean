import Mathlib.Data.List.Sort

/-! # Maps in key order

A map as the list of its entries, the keys ascending: what an ordered map lists when it
is gone over.  Two maps that read alike are equal, and a map is collected back from its
own entries.
-/

/-- A map whose entries stand in key order. -/
structure OrderedMap (κ ν : Type*) [LinearOrder κ] where
  entries : List (κ × ν)
  sorted : (entries.map Prod.fst).Pairwise (· < ·)

namespace OrderedMap
open List
variable {κ ν : Type*} [LinearOrder κ]

theorem ext_entries {m m' : OrderedMap κ ν} (h : m.entries = m'.entries) : m = m' := by
  cases m
  cases m'
  congr

instance [DecidableEq ν] : DecidableEq (OrderedMap κ ν) := fun m m' =>
  decidable_of_iff (m.entries = m'.entries) ⟨ext_entries, congrArg entries⟩

def empty : OrderedMap κ ν := ⟨[], List.Pairwise.nil⟩

/-- The value listed for a key. -/
def get (m : OrderedMap κ ν) (k : κ) : Option ν := m.entries.lookup k

/-- A key set among entries that stand in order. -/
def insertEntry (k : κ) (v : ν) : List (κ × ν) → List (κ × ν)
  | [] => [(k, v)]
  | (k', v') :: rest =>
      if k < k' then (k, v) :: (k', v') :: rest
      else if k = k' then (k, v) :: rest
      else (k', v') :: insertEntry k v rest

variable {entries : List (κ × ν)} {k : κ} {v : ν}

theorem mem_insertEntry {key : κ} (h : key ∈ (insertEntry k v entries).map Prod.fst) :
    key = k ∨ key ∈ entries.map Prod.fst := by
  induction entries with
  | nil => exact .inl (mem_singleton.mp h)
  | cons e rest ih =>
    obtain ⟨k', v'⟩ := e
    rw [insertEntry] at h
    split_ifs at h with hlt heq
    · rcases mem_cons.mp h with h | h
      · exact .inl h
      · exact .inr h
    · rcases mem_cons.mp h with h | h
      · exact .inl h
      · exact .inr (mem_cons_of_mem _ h)
    · rcases mem_cons.mp h with h | h
      · exact .inr (h ▸ mem_cons_self)
      · rcases ih h with h | h
        · exact .inl h
        · exact .inr (mem_cons_of_mem _ h)

theorem sorted_insertEntry (h : (entries.map Prod.fst).Pairwise (· < ·)) :
    ((insertEntry k v entries).map Prod.fst).Pairwise (· < ·) := by
  induction entries with
  | nil => exact pairwise_singleton _ _
  | cons e rest ih =>
    obtain ⟨k', v'⟩ := e
    rw [map_cons, pairwise_cons] at h
    rw [insertEntry]
    split_ifs with hlt heq
    · refine pairwise_cons.mpr ⟨?_, pairwise_cons.mpr h⟩
      intro key hkey
      rcases mem_cons.mp hkey with rfl | hkey
      · exact hlt
      · exact hlt.trans (h.1 key hkey)
    · exact pairwise_cons.mpr ⟨heq ▸ h.1, h.2⟩
    · refine pairwise_cons.mpr ⟨fun key hkey => ?_, ih h.2⟩
      rcases mem_insertEntry hkey with rfl | hkey
      · exact lt_of_le_of_ne (not_lt.mp hlt) (Ne.symm heq)
      · exact h.1 key hkey

/-- The map with a key set to a value. -/
def insert (m : OrderedMap κ ν) (k : κ) (v : ν) : OrderedMap κ ν :=
  ⟨insertEntry k v m.entries, sorted_insertEntry m.sorted⟩

/-- The entries collected; of two of one key the later stays. -/
def ofList : List (κ × ν) → OrderedMap κ ν
  | [] => empty
  | (k, v) :: rest => if ((ofList rest).get k).isSome then ofList rest
      else (ofList rest).insert k v

variable {m : OrderedMap κ ν}

theorem get_insert {k k' : κ} :
    (m.insert k v).get k' = if k' = k then some v else m.get k' := by
  obtain ⟨entries, hsorted⟩ := m
  simp only [get, insert]
  induction entries with
  | nil =>
    by_cases hk : k' = k
    · rw [if_pos hk, hk, insertEntry, lookup_cons_self]
    · rw [if_neg hk, insertEntry, lookup_cons, beq_eq_false_iff_ne.mpr hk]
  | cons e rest ih =>
    obtain ⟨key, value⟩ := e
    rw [map_cons, pairwise_cons] at hsorted
    rw [insertEntry]
    by_cases hlt : k < key
    · rw [if_pos hlt]
      by_cases hk : k' = k
      · rw [if_pos hk, hk, lookup_cons_self]
      · rw [if_neg hk, lookup_cons, beq_eq_false_iff_ne.mpr hk]
    · rw [if_neg hlt]
      by_cases heq : k = key
      · rw [if_pos heq]
        by_cases hk : k' = k
        · rw [if_pos hk, hk, lookup_cons_self]
        · rw [if_neg hk, lookup_cons, beq_eq_false_iff_ne.mpr hk, lookup_cons,
            beq_eq_false_iff_ne.mpr (heq ▸ hk)]
      · rw [if_neg heq, lookup_cons, ih hsorted.2]
        by_cases hk : k' = k
        · simp only [if_pos hk, beq_eq_false_iff_ne.mpr (hk ▸ heq)]
        · simp only [if_neg hk, lookup_cons]

/-- A key not listed is not read. -/
theorem lookup_eq_none (h : k ∉ entries.map Prod.fst) :
    entries.lookup k = none := by
  rw [lookup_eq_none_iff]
  intro e he
  rw [bne_iff_ne]
  rintro rfl
  exact h (mem_map.mpr ⟨e, he, rfl⟩)

theorem get_ofList (hnodup : (entries.map Prod.fst).Nodup) :
    (ofList entries).get k = entries.lookup k := by
  induction entries generalizing k with
  | nil => rfl
  | cons e rest ih =>
    obtain ⟨key, value⟩ := e
    rw [map_cons, nodup_cons] at hnodup
    have hnone : ¬ ((ofList rest).get key).isSome := by
      rw [ih hnodup.2, lookup_eq_none hnodup.1]
      exact Bool.false_ne_true
    rw [ofList, if_neg hnone, get_insert, lookup_cons]
    by_cases hk : k = key
    · rw [if_pos hk, beq_iff_eq.mpr hk]
    · rw [if_neg hk, beq_eq_false_iff_ne.mpr hk, ih hnodup.2]

/-- What is read was listed. -/
theorem mem_of_get_ofList (h : (ofList entries).get k = some v) : (k, v) ∈ entries := by
  induction entries with
  | nil => cases h
  | cons e rest ih =>
    obtain ⟨key, value⟩ := e
    rw [ofList] at h
    split_ifs at h with hsome
    · exact mem_cons_of_mem _ (ih h)
    · rw [get_insert] at h
      split_ifs at h with hk
      · rw [hk, ← Option.some.inj h]
        exact mem_cons_self
      · exact mem_cons_of_mem _ (ih h)

/-- Where all that is listed for a key is one value, it is read. -/
theorem get_ofList_of_mem (hone : ∀ v', (k, v') ∈ entries → v' = v) (hmem : (k, v) ∈ entries) :
    (ofList entries).get k = some v := by
  induction entries with
  | nil => cases hmem
  | cons e rest ih =>
    obtain ⟨key, value⟩ := e
    have hrest := fun v' hv' => hone v' (mem_cons_of_mem _ hv')
    rw [ofList]
    by_cases hsome : ((ofList rest).get key).isSome
    · rw [if_pos hsome]
      rcases mem_cons.mp hmem with heq | hmem
      · cases heq
        obtain ⟨v', hv'⟩ := Option.isSome_iff_exists.mp hsome
        rw [hv', hrest v' (mem_of_get_ofList hv')]
      · exact ih hrest hmem
    · rw [if_neg hsome, get_insert]
      by_cases hk : k = key
      · rw [if_pos hk, hone value (hk ▸ mem_cons_self)]
      · rw [if_neg hk]
        rcases mem_cons.mp hmem with heq | hmem
        · exact absurd (Prod.mk.inj heq).1 hk
        · exact ih hrest hmem

/-- A map is collected from what it lists. -/
theorem ofList_entries (m : OrderedMap κ ν) : ofList m.entries = m := by
  obtain ⟨entries, hsorted⟩ := m
  induction entries with
  | nil => rfl
  | cons e rest ih =>
    obtain ⟨key, value⟩ := e
    have hrest := hsorted
    rw [map_cons, pairwise_cons] at hrest
    have hnot : key ∉ rest.map Prod.fst := fun hmem => lt_irrefl _ (hrest.1 key hmem)
    simp only at ih
    rw [ofList, ih hrest.2]
    have hnone : ¬ (get ⟨rest, hrest.2⟩ key).isSome := by
      rw [get, lookup_eq_none hnot]
      exact Bool.false_ne_true
    rw [if_neg hnone]
    refine ext_entries ?_
    rw [insert]
    cases rest with
    | nil => rfl
    | cons e' rest =>
      obtain ⟨key', value'⟩ := e'
      exact if_pos (hrest.1 key' mem_cons_self)

theorem nodup_keys (m : OrderedMap κ ν) : (m.entries.map Prod.fst).Nodup :=
  m.sorted.imp fun h => ne_of_lt h

/-! ## Entries kept and dropped -/

/-- The values, in key order. -/
def values (m : OrderedMap κ ν) : List ν := m.entries.map Prod.snd

/-- The entries a condition keeps. -/
def retain (m : OrderedMap κ ν) (p : κ → ν → Bool) : OrderedMap κ ν :=
  ⟨m.entries.filter fun e => p e.1 e.2, m.sorted.sublist (List.filter_sublist.map Prod.fst)⟩

/-- The map without a key. -/
def erase (m : OrderedMap κ ν) (k : κ) : OrderedMap κ ν := m.retain fun k' _ => k' ≠ k

/-- Of keys that stand once, what is listed is what is read. -/
theorem mem_iff_lookup (hnodup : (entries.map Prod.fst).Nodup) :
    (k, v) ∈ entries ↔ entries.lookup k = some v := by
  induction entries with
  | nil => simp
  | cons e rest ih =>
    obtain ⟨key, value⟩ := e
    rw [map_cons, nodup_cons] at hnodup
    rw [mem_cons, lookup_cons]
    by_cases hk : k = key
    · have hrest : (k, v) ∉ rest := fun hmem =>
        hnodup.1 (mem_map.mpr ⟨(k, v), hmem, hk⟩)
      rw [beq_iff_eq.mpr hk]
      constructor
      · rintro (h | h)
        · exact congrArg some (Prod.ext_iff.mp h).2.symm
        · exact absurd h hrest
      · intro h
        exact .inl (Prod.ext hk (Option.some.inj h).symm)
    · rw [beq_eq_false_iff_ne.mpr hk, ← ih hnodup.2]
      constructor
      · rintro (h | h)
        · exact absurd (Prod.ext_iff.mp h).1 hk
        · exact h
      · exact .inr

theorem mem_entries : (k, v) ∈ m.entries ↔ m.get k = some v := mem_iff_lookup m.nodup_keys

/-- Maps that read alike are equal. -/
theorem ext_get {m m' : OrderedMap κ ν} (h : ∀ k, m.get k = m'.get k) : m = m' := by
  have hirrefl : Std.Irrefl fun e e' : κ × ν => e.1 < e'.1 := ⟨fun e => lt_irrefl e.1⟩
  have hasymm : Std.Antisymm fun e e' : κ × ν => e.1 < e'.1 :=
    ⟨fun _ _ hlt hgt => absurd hgt (lt_asymm hlt)⟩
  apply ext_entries
  refine List.Pairwise.eq_of_mem_iff (pairwise_map.mp m.sorted)
    (pairwise_map.mp m'.sorted) ?_
  rintro ⟨k, v⟩
  rw [mem_entries, mem_entries, h]

theorem mem_values : v ∈ m.values ↔ ∃ k, m.get k = some v := by
  constructor
  · intro h
    obtain ⟨⟨k, _⟩, hmem, rfl⟩ := mem_map.mp h
    exact ⟨k, mem_entries.mp hmem⟩
  · rintro ⟨k, h⟩
    exact mem_map.mpr ⟨(k, v), mem_entries.mpr h, rfl⟩

theorem get_retain_eq_some {p : κ → ν → Bool} :
    (m.retain p).get k = some v ↔ m.get k = some v ∧ p k v = true := by
  rw [← mem_entries, ← mem_entries, retain, mem_filter]

theorem get_erase_eq_some {k k' : κ} :
    (m.erase k).get k' = some v ↔ m.get k' = some v ∧ k' ≠ k := by
  rw [erase, get_retain_eq_some, decide_eq_true_iff]

@[simp] theorem get_empty : (empty : OrderedMap κ ν).get k = none := rfl

/-- How many entries there are. -/
def size (m : OrderedMap κ ν) : Nat := m.entries.length

theorem nodup_entries (m : OrderedMap κ ν) : m.entries.Nodup := m.nodup_keys.of_map

theorem erase_of_get_eq_none (h : m.get k = none) :
    m.erase k = m := by
  apply ext_entries
  refine filter_eq_self.mpr ?_
  rintro ⟨k', v⟩ hmem
  rw [decide_eq_true_iff]
  rintro rfl
  rw [mem_entries.mp hmem] at h
  cases h

/-- Setting a key puts one entry in the place of what the key had. -/
theorem perm_insert :
    (m.insert k v).entries.Perm ((k, v) :: (m.erase k).entries) := by
  have hnodup : ((k, v) :: (m.erase k).entries).Nodup := by
    refine nodup_cons.mpr ⟨fun hmem => ?_, (m.erase k).nodup_entries⟩
    exact (get_erase_eq_some.mp (mem_entries.mp hmem)).2 rfl
  apply (perm_ext_iff_of_nodup (m.insert k v).nodup_entries hnodup).mpr
  rintro ⟨k', v'⟩
  rw [mem_entries, get_insert, mem_cons, mem_entries, get_erase_eq_some, Prod.mk.injEq]
  by_cases hk : k' = k
  · rw [if_pos hk, Option.some.injEq]
    constructor
    · exact fun h => .inl ⟨hk, h.symm⟩
    · rintro (⟨-, h⟩ | ⟨-, h⟩)
      · exact h.symm
      · exact absurd hk h
  · rw [if_neg hk]
    constructor
    · exact fun h => .inr ⟨h, hk⟩
    · rintro (⟨h, -⟩ | ⟨h, -⟩)
      · exact absurd h hk
      · exact h

end OrderedMap

/-- Bit vectors in the order of the numbers they write. -/
instance bitVecLinearOrder {w : Nat} : LinearOrder (BitVec w) where
  le := (· ≤ ·)
  lt := (· < ·)
  le_refl := BitVec.le_refl
  le_trans _ _ _ := BitVec.le_trans
  lt_iff_le_not_ge _ _ := Nat.lt_iff_le_and_not_ge
  le_antisymm _ _ := BitVec.le_antisymm
  le_total := BitVec.le_total
  toDecidableLE _ _ := inferInstanceAs (Decidable (_ ≤ _))
  toDecidableEq := inferInstance
  toDecidableLT _ _ := inferInstanceAs (Decidable (_ < _))
