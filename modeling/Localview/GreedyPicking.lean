import Mathlib.Data.List.Perm.Basic

/-! # Picking greedily

Items are gone through in order and picked, up to a limit, unless one that was picked
conflicts.  What is picked does not conflict, and what is not was either refused by a
picked item before it or came when the limit was reached.
-/
namespace GreedyPicking
open List
variable {α : Type*}

/-- The items picked on top of those picked before. -/
def pick (conflicts : α → α → Bool) (limit : Nat) : List α → List α → List α
  | picked, [] => picked
  | picked, item :: rest =>
    if limit ≤ picked.length then picked
    else if picked.any (fun other => conflicts other item) then pick conflicts limit picked rest
    else pick conflicts limit (picked ++ [item]) rest

variable {conflicts : α → α → Bool} {limit : Nat}

theorem length_pick_le {picked items : List α} (h : picked.length ≤ limit) :
    (pick conflicts limit picked items).length ≤ limit := by
  induction items generalizing picked with
  | nil => exact h
  | cons item rest ih =>
    rw [pick]
    split_ifs with hfull hconflict
    · exact h
    · exact ih h
    · apply ih
      rw [length_append, length_singleton]
      omega

theorem pairwise_pick {picked items : List α}
    (h : picked.Pairwise fun a b => conflicts a b = false) :
    (pick conflicts limit picked items).Pairwise fun a b => conflicts a b = false := by
  induction items generalizing picked with
  | nil => exact h
  | cons item rest ih =>
    rw [pick]
    split_ifs with hfull hconflict
    · exact h
    · exact ih h
    · apply ih
      refine pairwise_append.mpr ⟨h, pairwise_singleton _ _, fun other hother last hlast => ?_⟩
      rw [mem_singleton.mp hlast]
      rw [Bool.not_eq_true, any_eq_false] at hconflict
      exact Bool.not_eq_true _ |>.mp (hconflict other hother)

theorem subset_pick {picked items : List α} : picked ⊆ pick conflicts limit picked items := by
  induction items generalizing picked with
  | nil => exact List.Subset.refl _
  | cons item rest ih =>
    rw [pick]
    split_ifs with hfull hconflict
    · exact List.Subset.refl _
    · exact ih
    · exact List.Subset.trans (subset_append_left _ _) ih

/-- **What is not picked**: with the items in an order, an item left out conflicts with a
picked one that comes before it, or the limit is reached. -/
theorem exists_skipped {before : α → α → Prop} {picked items : List α}
    (hpicked : ∀ a ∈ picked, ∀ b ∈ items, before a b) (hitems : items.Pairwise before) :
    ∃ skipped, (pick conflicts limit picked items ++ skipped).Perm (picked ++ items) ∧
      ∀ item ∈ skipped, limit ≤ (pick conflicts limit picked items).length ∨
        ∃ other ∈ pick conflicts limit picked items, before other item ∧
          conflicts other item = true := by
  induction items generalizing picked with
  | nil => exact ⟨[], .refl _, fun _ hmem => nomatch hmem⟩
  | cons item rest ih =>
    obtain ⟨hitem, hrest⟩ := pairwise_cons.mp hitems
    have hlater := fun a ha b hb => hpicked a ha b (mem_cons_of_mem _ hb)
    rw [pick]
    split_ifs with hfull hconflict
    · exact ⟨item :: rest, .refl _, fun _ _ => .inl hfull⟩
    · obtain ⟨skipped, hperm, hskipped⟩ := ih hlater hrest
      obtain ⟨other, hother, hcon⟩ := any_eq_true.mp hconflict
      refine ⟨item :: skipped, ?_, fun skip hskip => ?_⟩
      · exact perm_middle.trans ((hperm.cons item).trans perm_middle.symm)
      · rcases mem_cons.mp hskip with rfl | hskip
        · exact .inr ⟨other, subset_pick hother, hpicked other hother skip mem_cons_self, hcon⟩
        · exact hskipped skip hskip
    · have hnext : ∀ a ∈ picked ++ [item], ∀ b ∈ rest, before a b := by
        intro a ha b hb
        rcases mem_append.mp ha with ha | ha
        · exact hlater a ha b hb
        · exact mem_singleton.mp ha ▸ hitem b hb
      obtain ⟨skipped, hperm, hskipped⟩ := ih hnext hrest
      refine ⟨skipped, ?_, hskipped⟩
      rw [append_assoc, singleton_append] at hperm
      exact hperm

end GreedyPicking
