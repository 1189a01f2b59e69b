import Mathlib.Data.List.FinRange
import Mathlib.Data.List.Perm.Basic

/-! # Greedy assignment

Items are assigned slots one after another.  An item chooses among the slots that are
free; where it chooses none it is assigned something new, which is no slot.  A choice is
`Stable` when what an item chooses with all slots free, its *own* choice, it chooses
whenever it is free, and it chooses none where it has no own choice.

What the items get depends on the order they come in, unless the own choices are
distinct: `orderFree_iff`.
-/
namespace GreedyAssignment
open List Function
variable {ι κ : Type*}

/-- Choices of free slots, which follow the own choice. -/
structure Stable (slot : κ → Bool) (choose : ι → List κ → Option κ) : Prop where
  slot : ∀ {i taken k}, choose i taken = some k → slot k = true
  free : ∀ {i taken k}, choose i taken = some k → k ∉ taken
  keep : ∀ {i taken k}, choose i [] = some k → k ∉ taken → choose i taken = some k
  none : ∀ {i taken}, choose i [] = none → choose i taken = none

/-- The items get what is listed, one after another, where what is listed first is
taken. -/
inductive Assigns (slot : κ → Bool) (choose : ι → List κ → Option κ) :
    List κ → List ι → List κ → Prop
  | nil (taken : List κ) : Assigns slot choose taken [] []
  | chosen {taken items ks} (i : ι) (k : κ) : choose i taken = some k →
      Assigns slot choose (k :: taken) items ks → Assigns slot choose taken (i :: items) (k :: ks)
  | fresh {taken items ks} (i : ι) (k : κ) : choose i taken = .none → slot k = false →
      Assigns slot choose (k :: taken) items ks → Assigns slot choose taken (i :: items) (k :: ks)

/-- What was assigned, if it is a slot. -/
def given (slot : κ → Bool) (k : κ) : Option κ := if slot k then some k else none

/-- What the items choose with all slots free. -/
def ownChoices (choose : ι → List κ → Option κ) (items : List ι) : List κ :=
  items.filterMap fun i => choose i []

variable {slot : κ → Bool} {choose : ι → List κ → Option κ} {taken ks : List κ}
  {items : List ι} {i : ι} {k : κ}

theorem ownChoices_cons_some (h : choose i [] = some k) :
    ownChoices choose (i :: items) = k :: ownChoices choose items :=
  filterMap_cons_some h

theorem ownChoices_cons_none (h : choose i [] = none) :
    ownChoices choose (i :: items) = ownChoices choose items :=
  filterMap_cons_none h

theorem given_of_slot (h : slot k = true) : given slot k = some k := if_pos h

theorem given_of_new (h : slot k = false) : given slot k = none :=
  if_neg (Bool.eq_false_iff.mp h)

theorem getElem?_of_given {j : Nat} (h : (ks[j]?).map (given slot) = some (some k)) :
    ks[j]? = some k := by
  obtain ⟨k', hk', hgiven⟩ := Option.map_eq_some_iff.mp h
  by_cases hslot : slot k' = true
  · rw [given_of_slot hslot] at hgiven
    rw [hk', Option.some.inj hgiven]
  · rw [given_of_new (Bool.eq_false_iff.mpr hslot)] at hgiven
    cases hgiven

theorem Assigns.length_eq (h : Assigns slot choose taken items ks) :
    ks.length = items.length := by
  induction h with
  | nil => rfl
  | chosen _ _ _ _ ih => exact congrArg Nat.succ ih
  | fresh _ _ _ _ _ ih => exact congrArg Nat.succ ih

/-- Whoever comes first gets its own choice. -/
theorem Assigns.first (hstable : Stable slot choose)
    (h : Assigns slot choose [] (i :: items) (k :: ks)) : given slot k = choose i [] := by
  cases h with
  | chosen _ _ hk _ => rw [hk, given_of_slot (hstable.slot hk)]
  | fresh _ _ hnone hnew _ => rw [hnone, given_of_new hnew]

/-- **Distinct own choices are what is given.** -/
theorem Assigns.own (hstable : Stable slot choose) (h : Assigns slot choose taken items ks)
    (hnodup : (ownChoices choose items).Nodup)
    (htaken : ∀ k ∈ taken, k ∉ ownChoices choose items) :
    List.Forall₂ (fun i k => given slot k = choose i []) items ks := by
  induction h with
  | nil => exact .nil
  | @chosen taken items ks i k hk hrest ih =>
    cases hown : choose i [] with
    | none =>
      rw [hstable.none hown] at hk
      cases hk
    | some k' =>
      rw [ownChoices_cons_some hown] at hnodup htaken
      obtain ⟨hfirst, hnodup⟩ := nodup_cons.mp hnodup
      -- its own choice is free, since no item before it has the same
      have hfree : k' ∉ taken := fun hmem => htaken k' hmem mem_cons_self
      obtain rfl : k' = k := by
        rw [hstable.keep hown hfree] at hk
        exact Option.some.inj hk
      refine .cons ?_ (ih hnodup ?_)
      · rw [hown, given_of_slot (hstable.slot hk)]
      · intro k hmem hlater
        rcases mem_cons.mp hmem with rfl | hmem
        · exact hfirst hlater
        · exact htaken k hmem (mem_cons_of_mem _ hlater)
  | @fresh taken items ks i k hnone hnew hrest ih =>
    cases hown : choose i [] with
    | none =>
      rw [ownChoices_cons_none hown] at hnodup htaken
      refine .cons ?_ (ih hnodup ?_)
      · rw [hown, given_of_new hnew]
      · intro k hmem hlater
        rcases mem_cons.mp hmem with rfl | hmem
        · -- what is new is nobody's choice
          obtain ⟨j, -, hj⟩ := mem_filterMap.mp hlater
          rw [hstable.slot hj] at hnew
          cases hnew
        · exact htaken k hmem hlater
    | some k' =>
      rw [ownChoices_cons_some hown] at htaken
      have hfree : k' ∉ taken := fun hmem => htaken k' hmem mem_cons_self
      rw [hstable.keep hown hfree] at hnone
      cases hnone

/-- Slots that are given are among what is assigned. -/
theorem ownChoices_eq_filter (h : List.Forall₂ (fun i k => given slot k = choose i []) items ks) :
    ownChoices choose items = ks.filter slot := by
  induction h with
  | nil => rfl
  | @cons i k items ks hk _ ih =>
    by_cases hslot : slot k = true
    · rw [given_of_slot hslot] at hk
      rw [ownChoices_cons_some hk.symm, filter_cons_of_pos hslot, ih]
    · rw [Bool.not_eq_true] at hslot
      rw [given_of_new hslot] at hk
      rw [ownChoices_cons_none hk.symm, filter_cons_of_neg (by simpa using hslot), ih]

section
variable {n : Nat} {f : Fin n → ι} {runs : Equiv.Perm (Fin n) → List κ → Prop}

/-- Every order gives each item the slot that any other does. -/
def OrderFree (slot : κ → Bool) (runs : Equiv.Perm (Fin n) → List κ → Prop) : Prop :=
  ∀ σ σ' ks ks', runs σ ks → runs σ' ks' → ∀ i j : Fin n, σ i = σ' j →
    (ks[i.val]?).map (given slot) = (ks'[j.val]?).map (given slot)

/-- What an order gives, position by position. -/
theorem getElem?_of_own {ks : List κ} {g : Fin n → ι}
    (h : List.Forall₂ (fun i k => given slot k = choose i []) (List.ofFn g) ks) (i : Fin n) :
    (ks[i.val]?).map (given slot) = some (choose (g i) []) := by
  obtain ⟨hlength, hget⟩ := List.forall₂_iff_get.mp h
  rw [length_ofFn] at hlength
  have hi : i.val < ks.length := by
    have := i.isLt
    omega
  rw [List.getElem?_eq_getElem hi, Option.map_some]
  have hown := hget i.val (by rw [List.length_ofFn]; exact i.isLt) hi
  simp only [List.get_eq_getElem, List.getElem_ofFn] at hown
  exact congrArg some hown

theorem nodup_own_comp (σ : Equiv.Perm (Fin n)) :
    (ownChoices choose (List.ofFn (f ∘ σ))).Nodup ↔
      (ownChoices choose (List.ofFn f)).Nodup :=
  ((σ.ofFn_comp_perm f).filterMap _).nodup_iff

/-- Where no order matters, each item gets its own choice: it does when it comes first. -/
theorem OrderFree.own (hfree : OrderFree slot runs) (hstable : Stable slot choose)
    (hruns : ∀ σ ks, runs σ ks → Assigns slot choose [] (List.ofFn (f ∘ σ)) ks)
    (hlive : ∀ σ, ∃ ks, runs σ ks) {σ : Equiv.Perm (Fin n)} (h : runs σ ks) (i : Fin n) :
    (ks[i.val]?).map (given slot) = some (choose (f (σ i)) []) := by
  cases n with
  | zero => exact i.elim0
  | succ n =>
    -- the order in which the item comes first
    obtain ⟨ks', hks'⟩ := hlive (Equiv.swap 0 (σ i))
    have hassigns := hruns _ _ hks'
    rw [hfree σ (Equiv.swap 0 (σ i)) ks ks' h hks' i 0 (Equiv.swap_apply_left 0 (σ i)).symm]
    rw [ofFn_succ] at hassigns
    cases ks' with
    | nil => cases hassigns
    | cons k ks' =>
      have hfirst := hassigns.first hstable
      rw [comp_apply, Equiv.swap_apply_left] at hfirst
      exact congrArg some hfirst

/-- **No order matters** exactly when the own choices are distinct. -/
theorem orderFree_iff (hstable : Stable slot choose)
    (hruns : ∀ σ ks, runs σ ks → Assigns slot choose [] (List.ofFn (f ∘ σ)) ks)
    (hnodup : ∀ σ ks, runs σ ks → ks.Nodup) (hlive : ∀ σ, ∃ ks, runs σ ks) :
    OrderFree slot runs ↔ (ownChoices choose (List.ofFn f)).Nodup := by
  constructor
  · intro hfree
    obtain ⟨ks, hks⟩ := hlive (Equiv.refl _)
    have hassigns := hruns _ _ hks
    have hown : List.Forall₂ (fun i k => given slot k = choose i []) (List.ofFn f) ks := by
      refine List.forall₂_iff_get.mpr ⟨hassigns.length_eq.symm, fun i h₁ h₂ => ?_⟩
      have hi := hfree.own hstable hruns hlive hks ⟨i, by rwa [length_ofFn] at h₁⟩
      rw [getElem?_eq_getElem h₂, Option.map_some, Option.some.injEq] at hi
      simpa using hi
    rw [ownChoices_eq_filter hown]
    exact (hnodup _ _ hks).filter _
  · intro hown σ σ' ks ks' h h' i j hij
    have hσ := (hruns σ ks h).own hstable ((nodup_own_comp σ).mpr hown) (fun _ h => by cases h)
    have hσ' := (hruns σ' ks' h').own hstable ((nodup_own_comp σ').mpr hown)
      (fun _ h => by cases h)
    rw [getElem?_of_own hσ i, getElem?_of_own hσ' j, comp_apply, comp_apply, hij]

end

end GreedyAssignment
