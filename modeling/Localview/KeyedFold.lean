import Mathlib.Data.List.Nodup

/-! # Folds over keyed items

A loop that goes over items, each with a key, and an observation of its state that only
the item of one key can change.  Where no two items have a key in common, the loop does
to the observation what that item does, or nothing where there is no such item.
-/
namespace KeyedFold
open List
variable {S A K O : Type*} {f : S → A → S} (key : A → K) (obs : S → O) {k : K}

/-- Without an item of the key nothing is observed. -/
theorem foldl_frame (hframe : ∀ s a, key a ≠ k → obs (f s a) = obs s) {items : List A} {s : S}
    (hk : k ∉ items.map key) : obs (items.foldl f s) = obs s := by
  induction items generalizing s with
  | nil => rfl
  | cons a items ih =>
    rw [map_cons, mem_cons, not_or] at hk
    rw [foldl_cons, ih hk.2]
    exact hframe s a (Ne.symm hk.1)

/-- The item of the key meets the observation as it was. -/
theorem foldl_at (hframe : ∀ s a, key a ≠ k → obs (f s a) = obs s) {items : List A} {s : S}
    (hnodup : (items.map key).Nodup) {a : A} (ha : a ∈ items) (hk : key a = k) :
    ∃ t, obs t = obs s ∧ obs (items.foldl f s) = obs (f t a) := by
  induction items generalizing s with
  | nil => cases ha
  | cons b items ih =>
    rw [map_cons, nodup_cons] at hnodup
    rw [foldl_cons]
    rcases mem_cons.mp ha with rfl | ha
    · exact ⟨s, rfl, foldl_frame key obs hframe (hk ▸ hnodup.1)⟩
    · -- the first item has another key
      have hne : key b ≠ k := by
        rintro rfl
        exact hnodup.1 (mem_map.mpr ⟨a, ha, hk⟩)
      obtain ⟨t, ht, hfold⟩ := ih hnodup.2 ha (s := f s b)
      exact ⟨t, ht.trans (hframe s b hne), hfold⟩

end KeyedFold
