import Mathlib.Data.Finset.Basic
import Mathlib.Algebra.Order.Group.Multiset

/-! # Claim tables

Attempts that first hold a claim and then publish it, each claim under a key and
at most one claim a key.  An attempt takes its claim only where no claim of the
key is held or live; when it ends it gives the claim back, or publishes it.  A
table is `Exclusive` when the claims held are those of the attempts in progress
and no key has two claims; every `Step` keeps that.
-/

/-- The claims of the attempts in progress, those held, and those published. -/
structure ClaimTable (C : Type*) where
  attempts : Multiset C
  (held live : Finset C)

namespace ClaimTable
open Multiset Finset
variable {C K : Type*} [DecidableEq C] {key : C → K} {t t' : ClaimTable C}

/-- What may happen to a table. -/
inductive Step (key : C → K) (t : ClaimTable C) : ClaimTable C → Prop
  /-- Some live claims are released. -/
  | release (live : Finset C) : live ⊆ t.live → Step key t { t with live }
  | take (c : C) : (∀ c' ∈ t.held ∪ t.live, key c' ≠ key c) →
      Step key t { t with attempts := c ::ₘ t.attempts, held := insert c t.held }
  | giveBack (c : C) : c ∈ t.attempts →
      Step key t { t with attempts := t.attempts.erase c, held := t.held.erase c }
  | publish (c : C) : c ∈ t.attempts →
      Step key t { attempts := t.attempts.erase c, held := t.held.erase c, live := insert c t.live }
  /-- Claims that no attempt is in progress for are taken away. -/
  | revoke (p : C → Prop) [DecidablePred p] (live : Finset C) : (∀ c ∈ t.attempts, ¬ p c) →
      live ⊆ t.live → Step key t { t with held := t.held.filter (¬ p ·), live }

/-- **At most one claim a key, held by an attempt in progress or live.** -/
structure Exclusive (key : C → K) (t : ClaimTable C) : Prop where
  held_iff : ∀ c, c ∈ t.held ↔ c ∈ t.attempts
  one : ((t.attempts + t.live.val).map key).Nodup

omit [DecidableEq C] in
theorem Exclusive.nodup (h : Exclusive key t) : (t.attempts + t.live.val).Nodup :=
  Multiset.Nodup.of_map key h.one

omit [DecidableEq C] in
/-- No two attempts hold the same claim. -/
theorem Exclusive.attempts_nodup (h : Exclusive key t) : t.attempts.Nodup :=
  (Multiset.nodup_add.mp h.nodup).1

omit [DecidableEq C] in
theorem Exclusive.not_live (h : Exclusive key t) {c : C} (hc : c ∈ t.attempts) : c ∉ t.live :=
  Multiset.disjoint_left.mp (Multiset.nodup_add.mp h.nodup).2.2 hc

/-- Two claims of one key are one claim. -/
theorem Exclusive.eq_of_key (h : Exclusive key t) {c c' : C} (hc : c ∈ t.held ∪ t.live)
    (hc' : c' ∈ t.held ∪ t.live) (hkey : key c = key c') : c = c' := by
  have hmem : ∀ {c}, c ∈ t.held ∪ t.live → c ∈ t.attempts + t.live.val := by
    intro c hc
    rcases Finset.mem_union.mp hc with hheld | hlive
    · exact Multiset.mem_add.mpr (.inl ((h.held_iff c).mp hheld))
    · exact Multiset.mem_add.mpr (.inr hlive)
  exact inj_on_of_nodup_map h.one c (hmem hc) c' (hmem hc') hkey

omit [DecidableEq C] in
/-- A claim is not held and live at once. -/
theorem Exclusive.disjoint (h : Exclusive key t) : Disjoint t.held t.live := by
  rw [Finset.disjoint_left]
  exact fun c hc => h.not_live ((h.held_iff c).mp hc)

omit [DecidableEq C] in
/-- Fewer claims are still one a key. -/
theorem nodup_of_le {A A' : Multiset C} {L L' : Finset C} (h : ((A + L.val).map key).Nodup)
    (hA : A' ≤ A) (hL : L' ⊆ L) : ((A' + L'.val).map key).Nodup :=
  Multiset.nodup_of_le (Multiset.map_le_map (add_le_add hA (Finset.val_le_iff.mpr hL))) h

/-- An attempt that ends leaves no claim held. -/
theorem Exclusive.held_erase (h : Exclusive key t) (c c' : C) :
    c' ∈ t.held.erase c ↔ c' ∈ t.attempts.erase c := by
  rw [mem_erase, h.attempts_nodup.mem_erase_iff, h.held_iff]

theorem Exclusive.step (h : Exclusive key t) (hs : Step key t t') : Exclusive key t' := by
  cases hs with
  | release live hlive => exact ⟨h.held_iff, nodup_of_le h.one le_rfl hlive⟩
  | take c hfree =>
    constructor
    · intro c'
      rw [Finset.mem_insert, Multiset.mem_cons, h.held_iff]
    · show ((c ::ₘ t.attempts + t.live.val).map key).Nodup
      rw [Multiset.cons_add, Multiset.map_cons, Multiset.nodup_cons]
      refine ⟨fun hmem => ?_, h.one⟩
      obtain ⟨c', hc', hkey⟩ := Multiset.mem_map.mp hmem
      refine hfree c' ?_ hkey
      rcases Multiset.mem_add.mp hc' with hattempt | hlive
      · exact mem_union_left _ ((h.held_iff c').mpr hattempt)
      · exact mem_union_right _ hlive
  | giveBack c hc =>
    exact ⟨h.held_erase c, nodup_of_le h.one (erase_le c t.attempts) subset_rfl⟩
  | publish c hc =>
    refine ⟨h.held_erase c, ?_⟩
    -- the claim moves from the attempts to the live ones
    have hmoved : t.attempts.erase c + (insert c t.live).val = t.attempts + t.live.val := by
      rw [insert_val_of_notMem (h.not_live hc), add_cons, ← cons_add,
        cons_erase hc]
    show ((t.attempts.erase c + (insert c t.live).val).map key).Nodup
    rw [hmoved]
    exact h.one
  | revoke p live hidle hlive =>
    refine ⟨fun c => ?_, nodup_of_le h.one le_rfl hlive⟩
    rw [Finset.mem_filter, h.held_iff]
    exact ⟨And.left, fun hc => ⟨hc, hidle c hc⟩⟩

omit [DecidableEq C] in
theorem exclusive_empty (key : C → K) : Exclusive key (⟨0, ∅, ∅⟩ : ClaimTable C) where
  held_iff := by simp
  one := by simp

end ClaimTable
