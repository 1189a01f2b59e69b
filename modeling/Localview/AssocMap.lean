import Mathlib.Data.List.Dedup
import Mathlib.Algebra.GroupWithZero.Nat

/-! # Finite maps as entry lists

A finite map from `κ` to `ν` with its entries listed, no key twice.  `get` reads
a key; `insert`, `erase`, `retain` and `modify` are what a keyed collection
offers, and each has one lemma that says what `get` reads afterwards.  Because a
key stands in one entry only, `get` and membership of the entry agree
(`mem_entries`), so what is counted over the entries is counted over the keys.
-/

/-- A finite map, as the list of its entries. -/
structure AssocMap (κ ν : Type*) where
  entries : List (κ × ν)
  nodup : (entries.map Prod.fst).Nodup

namespace AssocMap
open List
variable {κ ν : Type*} [DecidableEq κ]

/-- The map without entries. -/
def empty : AssocMap κ ν := ⟨[], List.nodup_nil⟩

/-- The value of a key. -/
def get (m : AssocMap κ ν) (k : κ) : Option ν :=
  (m.entries.find? fun e => e.1 = k).map Prod.snd

omit [DecidableEq κ] in
theorem nodup_filter (m : AssocMap κ ν) (p : κ × ν → Bool) :
    ((m.entries.filter p).map Prod.fst).Nodup :=
  m.nodup.sublist (filter_sublist.map Prod.fst)

/-- The entries a condition keeps. -/
def retain (m : AssocMap κ ν) (p : κ → ν → Bool) : AssocMap κ ν :=
  ⟨m.entries.filter fun e => p e.1 e.2, m.nodup_filter _⟩

omit [DecidableEq κ] in
/-- A condition that all entries meet keeps the map. -/
theorem retain_eq_self {m : AssocMap κ ν} {p : κ → ν → Bool}
    (h : ∀ k v, (k, v) ∈ m.entries → p k v = true) : m.retain p = m := by
  obtain ⟨entries, hnodup⟩ := m
  have hall : entries.filter (fun e => p e.1 e.2) = entries :=
    filter_eq_self.mpr fun e he => h e.1 e.2 he
  simp only [retain, hall]

/-- The map without a key. -/
def erase (m : AssocMap κ ν) (k : κ) : AssocMap κ ν := m.retain fun k' _ => k' ≠ k

/-- The map with a key set to a value. -/
def insert (m : AssocMap κ ν) (k : κ) (v : ν) : AssocMap κ ν :=
  ⟨(k, v) :: (m.erase k).entries, by
    rw [List.map_cons, List.nodup_cons]
    refine ⟨?_, (m.erase k).nodup⟩
    rintro hmem
    obtain ⟨e, he, rfl⟩ := List.mem_map.mp hmem
    simpa using (List.mem_filter.mp he).2⟩

/-- How many entries there are. -/
def size (m : AssocMap κ ν) : Nat := m.entries.length

/-- How many values meet a condition. -/
def count (m : AssocMap κ ν) (p : ν → Bool) : Nat := m.entries.countP fun e => p e.2

section
variable (m : AssocMap κ ν) {k k' : κ} {v : ν}

theorem mem_entries : (k, v) ∈ m.entries ↔ m.get k = some v := by
  obtain ⟨entries, hnodup⟩ := m
  simp only [get]
  induction entries with
  | nil => simp
  | cons e rest ih =>
    rw [map_cons, nodup_cons] at hnodup
    by_cases hk : e.1 = k
    · have hrest : (k, v) ∉ rest := fun hmem =>
        hnodup.1 (mem_map.mpr ⟨(k, v), hmem, hk.symm⟩)
      rw [find?_cons_of_pos (by simpa using hk), mem_cons]
      constructor
      · rintro (rfl | hmem)
        · rfl
        · exact absurd hmem hrest
      · intro hv
        exact .inl (Prod.ext hk.symm (Option.some.inj hv).symm)
    · rw [find?_cons_of_neg (by simpa using hk), mem_cons, ← ih hnodup.2]
      constructor
      · rintro (rfl | hmem)
        · exact absurd rfl hk
        · exact hmem
      · exact .inr

theorem get_isSome_iff : (m.get k).isSome ↔ k ∈ m.entries.map Prod.fst := by
  rw [Option.isSome_iff_exists, mem_map]
  constructor
  · rintro ⟨v, hv⟩
    exact ⟨(k, v), m.mem_entries.mpr hv, rfl⟩
  · rintro ⟨⟨k', v⟩, hmem, rfl⟩
    exact ⟨v, m.mem_entries.mp hmem⟩

@[simp] theorem get_empty : (empty : AssocMap κ ν).get k = none := rfl

@[simp] theorem get_retain (p : κ → ν → Bool) :
    (m.retain p).get k = (m.get k).filter (p k) := by
  refine Option.ext fun v => ?_
  rw [← mem_entries, retain, mem_filter, mem_entries, Option.filter_eq_some_iff]

@[simp] theorem get_erase_self : (m.erase k).get k = none := by
  simp [erase]

theorem get_erase_of_ne (h : k' ≠ k) : (m.erase k).get k' = m.get k' := by
  cases hget : m.get k' <;> simp [erase, h, hget]

theorem get_erase : (m.erase k).get k' = if k' = k then none else m.get k' := by
  split
  · next h => rw [h, get_erase_self]
  · next h => exact m.get_erase_of_ne h

@[simp] theorem get_insert_self : (m.insert k v).get k = some v := by
  simp [get, insert]

theorem get_insert_of_ne (h : k' ≠ k) : (m.insert k v).get k' = m.get k' := by
  rw [← m.get_erase_of_ne h]
  simp only [get, insert]
  rw [find?_cons_of_neg (by simpa using Ne.symm h)]

theorem get_insert : (m.insert k v).get k' = if k' = k then some v else m.get k' := by
  split
  · next h => rw [h, get_insert_self]
  · next h => exact m.get_insert_of_ne h

/-- Removing a key that is not there changes nothing. -/
theorem get_erase_absent (h : m.get k = none) : (m.erase k).get k' = m.get k' := by
  rw [get_erase]
  split
  · next hk => rw [hk, h]
  · rfl

end

theorem filter_ne_eq_self {k : κ} {rest : List (κ × ν)} (h : k ∉ rest.map Prod.fst) :
    rest.filter (fun e => decide (e.1 ≠ k)) = rest := by
  apply filter_eq_self.mpr
  intro a ha
  rw [decide_eq_true_iff]
  exact fun hak => h (mem_map.mpr ⟨a, ha, hak⟩)

section
variable (m : AssocMap κ ν) {k : κ} {v w : ν} (p : ν → Bool)

omit [DecidableEq κ] in
theorem count_retain_le (q : κ → ν → Bool) : (m.retain q).count p ≤ m.count p :=
  filter_sublist.countP_le

/-- A key counts once. -/
theorem count_erase : (m.erase k).count p + ((m.get k).any p).toNat = m.count p := by
  obtain ⟨entries, hnodup⟩ := m
  simp only [erase, retain, count, get]
  induction entries with
  | nil => rfl
  | cons e rest ih =>
    rw [map_cons, nodup_cons] at hnodup
    by_cases hk : e.1 = k
    · -- the key stands here, so nowhere else
      have hrest := filter_ne_eq_self (hk ▸ hnodup.1)
      rw [find?_cons_of_pos (by simpa using hk), filter_cons_of_neg (by simpa using hk),
        hrest, countP_cons, Option.map_some, Option.any_some]
      cases p e.2 <;> rfl
    · rw [find?_cons_of_neg (by simpa using hk), filter_cons_of_pos (by simpa using hk),
        countP_cons, countP_cons, ← ih hnodup.2]
      omega

theorem count_erase_le : (m.erase k).count p ≤ m.count p := m.count_retain_le p _

theorem count_insert : (m.insert k v).count p = (m.erase k).count p + (p v).toNat := by
  simp only [insert, count, countP_cons]
  cases p v <;> rfl

/-- A new key counts if its value does. -/
theorem count_insert_new (h : m.get k = none) :
    (m.insert k v).count p = m.count p + (p v).toNat := by
  have herase := m.count_erase (k := k) p
  rw [h] at herase
  rw [count_insert, ← herase]
  rfl

/-- A value in place of one that counts if the new one does adds nothing. -/
theorem count_replace_le (h : m.get k = some w) (hp : p v = true → p w = true) :
    (m.insert k v).count p ≤ m.count p := by
  have herase := m.count_erase (k := k) p
  rw [h, Option.any_some] at herase
  rw [count_insert, ← herase]
  cases hv : p v with
  | false => exact Nat.le_add_right _ _
  | true => exact (hp hv).symm ▸ Nat.le_refl _

omit [DecidableEq κ] in
/-- The size counts everything. -/
theorem size_eq_count : m.size = m.count fun _ => true := by
  simp [size, count]

omit [DecidableEq κ] in
theorem size_retain_le (q : κ → ν → Bool) : (m.retain q).size ≤ m.size := by
  rw [size_eq_count, size_eq_count]
  exact m.count_retain_le _ q

theorem size_insert_le : (m.insert k v).size ≤ m.size + 1 :=
  Nat.succ_le_succ (m.size_retain_le _)

end

/-! ## Totals -/

/-- A number of each value, added up. -/
def total (m : AssocMap κ ν) (g : ν → Nat) : Nat := (m.entries.map fun e => g e.2).sum

section
variable (m : AssocMap κ ν) {m' : AssocMap κ ν} {k : κ} {v : ν} (g : ν → Nat)

omit [DecidableEq κ] in
theorem total_retain_le (q : κ → ν → Bool) : (m.retain q).total g ≤ m.total g := by
  obtain ⟨entries, hnodup⟩ := m
  simp only [retain, total]
  clear hnodup
  induction entries with
  | nil => exact Nat.le_refl _
  | cons e rest ih =>
    simp only [filter_cons]
    by_cases he : q e.1 e.2 = true
    · rw [if_pos he]
      simp only [map_cons, sum_cons]
      omega
    · rw [if_neg he]
      simp only [map_cons, sum_cons]
      omega

/-- A key adds its number once. -/
theorem total_erase (h : m.get k = some v) : (m.erase k).total g + g v = m.total g := by
  obtain ⟨entries, hnodup⟩ := m
  simp only [erase, retain, total, get] at h ⊢
  induction entries with
  | nil => cases h
  | cons e rest ih =>
    rw [map_cons, nodup_cons] at hnodup
    by_cases hk : e.1 = k
    · -- the key stands here, so nowhere else
      have hrest := filter_ne_eq_self (hk ▸ hnodup.1)
      rw [find?_cons_of_pos (by simpa using hk)] at h
      cases h
      rw [filter_cons_of_neg (by simpa using hk), hrest, map_cons, sum_cons]
      omega
    · rw [find?_cons_of_neg (by simpa using hk)] at h
      rw [filter_cons_of_pos (by simpa using hk), map_cons, map_cons, sum_cons,
        sum_cons, ← ih hnodup.2 h]
      omega

theorem total_insert : (m.insert k v).total g = (m.erase k).total g + g v := by
  simp only [insert, total, map_cons, sum_cons]
  omega

theorem total_insert_le : (m.insert k v).total g ≤ m.total g + g v := by
  have herase : (m.erase k).total g ≤ m.total g := m.total_retain_le g _
  rw [total_insert]
  omega

/-- Different keys of the map add up to no more than all of them. -/
theorem sum_le_total {ids : List κ} {f : κ → Nat} (hnodup : ids.Nodup)
    (h : ∀ id ∈ ids, ∃ v, m.get id = some v ∧ f id ≤ g v) : (ids.map f).sum ≤ m.total g := by
  induction ids generalizing m with
  | nil => exact Nat.zero_le _
  | cons id ids ih =>
    obtain ⟨hid, hids⟩ := nodup_cons.mp hnodup
    obtain ⟨v, hv, hle⟩ := h id mem_cons_self
    have hrest : (ids.map f).sum ≤ (m.erase id).total g := by
      refine ih (m.erase id) hids fun id' hid' => ?_
      have hne : id' ≠ id := fun heq => hid (heq ▸ hid')
      rw [m.get_erase_of_ne hne]
      exact h id' (mem_cons_of_mem _ hid')
    rw [map_cons, sum_cons, ← m.total_erase g hv]
    omega

/-- So do the keys of another map. -/
theorem total_le_total (h : ∀ k v, m'.get k = some v → ∃ v', m.get k = some v' ∧ g v ≤ g v') :
    m'.total g ≤ m.total g := by
  have hsum : ((m'.entries.map Prod.fst).map fun k => ((m'.get k).map g).getD 0).sum = m'.total g := by
    rw [total, map_map]
    congr 1
    apply map_congr_left
    rintro ⟨k, v⟩ hmem
    have hget := m'.mem_entries.mp hmem
    simp [hget]
  rw [← hsum]
  refine m.sum_le_total g m'.nodup fun k hk => ?_
  obtain ⟨v, hv⟩ := Option.isSome_iff_exists.mp (m'.get_isSome_iff.mpr hk)
  obtain ⟨v', hv', hle⟩ := h k v hv
  exact ⟨v', hv', by simpa [hv] using hle⟩

/-- Different keys of the map are no more than it has. -/
theorem length_le_size {ids : List κ} (hnodup : ids.Nodup)
    (h : ∀ id ∈ ids, (m.get id).isSome) : ids.length ≤ m.size := by
  have hone : (ids.map fun _ => 1).sum ≤ m.total fun _ => 1 := by
    refine m.sum_le_total _ hnodup fun id hid => ?_
    obtain ⟨v, hv⟩ := Option.isSome_iff_exists.mp (h id hid)
    exact ⟨v, hv, Nat.le_refl _⟩
  simpa [size, total] using hone

end

end AssocMap
