import Mathlib.Data.List.Count
import Mathlib.Data.List.Induction

/-! # Runs of a labelled step relation

A system is a step relation `step s l t` on states, each step carrying a label
(the call made and the answer it got).  `Run step s tr t` says that the labels
`tr` lead from `s` to `t`.  Three rules turn a fact about one step into a fact
about every run:

* `Run.invariant`: what the first state has and each step preserves, every
  reached state has;
* `Run.countP_le`: a *budget* that each counted step spends and no step refills
  bounds how often the counted step occurs;
* `Run.never_after`: a set of states that no step leaves and in which a label
  is impossible excludes the label for the rest of the run;
* `Along.of_invariant`: where each step of a run meets a condition, an invariant
  that the step keeps under it makes each step meet what invariant and condition
  imply.

`latest` reads the last label of a kind off the labels of a run.  A step that is a
partial function of state and label is run by `perform`.
-/
namespace StateRun
open List
variable {S L : Type*}

/-- The labels `tr` lead from `s` to `t`. -/
inductive Run (step : S → L → S → Prop) : S → List L → S → Prop
  | nil (s : S) : Run step s [] s
  | cons {s t u : S} {l : L} {tr : List L} :
      step s l t → Run step t tr u → Run step s (l :: tr) u

namespace Run
variable {step : S → L → S → Prop} {s t u : S} {tr tr' : List L} {l : L}

theorem nil_iff : Run step s [] t ↔ t = s := by
  constructor
  · intro h; cases h; rfl
  · rintro rfl; exact Run.nil t

theorem cons_iff : Run step s (l :: tr) u ↔ ∃ t, step s l t ∧ Run step t tr u := by
  constructor
  · intro h; cases h with | cons hs hrun => exact ⟨_, hs, hrun⟩
  · rintro ⟨t, hs, hrun⟩; exact Run.cons hs hrun

/-- A run of a concatenation passes through a state between the two parts. -/
theorem append_iff : Run step s (tr ++ tr') u ↔ ∃ t, Run step s tr t ∧ Run step t tr' u := by
  induction tr generalizing s with
  | nil => simp [nil_iff]
  | cons l tr ih =>
    simp only [cons_append, cons_iff, ih]
    constructor
    · rintro ⟨v, hs, t, h₁, h₂⟩
      exact ⟨t, ⟨v, hs, h₁⟩, h₂⟩
    · rintro ⟨t, ⟨v, hs, h₁⟩, h₂⟩
      exact ⟨v, hs, t, h₁, h₂⟩

theorem snoc (h : Run step s tr t) (hs : step t l u) : Run step s (tr ++ [l]) u :=
  append_iff.mpr ⟨t, h, Run.cons hs (Run.nil u)⟩

/-- Where a label stands in a run, the step was taken. -/
theorem step_of_split (h : Run step s (tr ++ l :: tr') u) :
    ∃ a b, Run step s tr a ∧ step a l b ∧ Run step b tr' u := by
  obtain ⟨a, h₁, h₂⟩ := append_iff.mp h
  obtain ⟨b, hs, h₃⟩ := cons_iff.mp h₂
  exact ⟨a, b, h₁, hs, h₃⟩

/-- Where steps are functions of state and label, so are runs. -/
theorem unique (hfun : ∀ s l t t', step s l t → step s l t' → t = t')
    (h : Run step s tr t) {t' : S} (h' : Run step s tr t') : t = t' := by
  induction h generalizing t' with
  | nil => exact (nil_iff.mp h').symm
  | cons hs _ ih =>
    obtain ⟨v, hs', hrest⟩ := cons_iff.mp h'
    obtain rfl := hfun _ _ _ _ hs hs'
    exact ih hrest

/-- **Induction along a run**, from its first state on: `P` may speak of the
labels taken so far. -/
theorem forward_induction {P : List L → S → Prop} (h0 : P [] s)
    (hstep : ∀ tr t l u, Run step s tr t → P tr t → step t l u → P (tr ++ [l]) u)
    (h : Run step s tr t) : P tr t := by
  induction tr using List.reverseRec generalizing t with
  | nil =>
    obtain rfl := nil_iff.mp h
    exact h0
  | append_singleton tr l ih =>
    obtain ⟨v, hv, hlast⟩ := append_iff.mp h
    obtain ⟨w, hs, hend⟩ := cons_iff.mp hlast
    obtain rfl := nil_iff.mp hend
    exact hstep tr v l _ hv (ih hv) hs

/-- **Invariants.**  What holds first and is preserved by each step holds of
every reached state. -/
theorem invariant {I : S → Prop} (hstep : ∀ s l t, I s → step s l t → I t)
    (h : Run step s tr t) (h0 : I s) : I t := by
  induction h with
  | nil => exact h0
  | cons hs _ ih => exact ih (hstep _ _ _ h0 hs)

/-- **Budgets.**  If each counted step spends one unit of a budget that no step
refills, the counted labels are at most the budget at the start. -/
theorem countP_le {I : S → Prop} {p : L → Bool} {budget : S → Nat}
    (hI : ∀ s l t, I s → step s l t → I t)
    (hstep : ∀ s l t, I s → step s l t → (if p l then 1 else 0) + budget t ≤ budget s)
    (h : Run step s tr t) (h0 : I s) : tr.countP p + budget t ≤ budget s := by
  induction h with
  | nil => simp
  | cons hs _ ih =>
    have hone := hstep _ _ _ h0 hs
    have hrest := ih (hI _ _ _ h0 hs)
    rw [countP_cons]
    omega

/-- **Never after.**  Once in a set of states that no step leaves, a label that
is impossible in the set does not occur again. -/
theorem never_after {C : S → Prop} {p : L → Prop}
    (hC : ∀ s l t, C s → step s l t → C t ∧ ¬ p l)
    (h : Run step s tr t) (h0 : C s) : ∀ l ∈ tr, ¬ p l := by
  induction h with
  | nil => intro l hl; cases hl
  | cons hs _ ih =>
    obtain ⟨hnext, hl⟩ := hC _ _ _ h0 hs
    intro m hm
    rcases mem_cons.mp hm with rfl | hm
    · exact hl
    · exact ih hnext m hm

end Run

/-! ## Conditions on the steps of a run -/

section
variable {step : S → L → S → Prop} {C D : S → L → Prop} {s t : S} {tr tr' : List L} {l : L}

/-- Each step of a run of `tr` from `s` meets `C` in the state it is taken in. -/
def Along (step : S → L → S → Prop) (C : S → L → Prop) (s : S) (tr : List L) : Prop :=
  ∀ earlier l later t, tr = earlier ++ l :: later → Run step s earlier t → C t l

theorem Along.left (h : Along step C s (tr ++ tr')) : Along step C s tr := by
  intro earlier l later t htr hrun
  exact h earlier l (later ++ tr') t (by rw [htr]; simp) hrun

theorem Along.last (h : Along step C s (tr ++ [l])) (hrun : Run step s tr t) : C t l :=
  h tr l [] t rfl hrun

/-- An invariant of the steps that meet a condition holds after a run of them. -/
theorem Run.invariant_along {I : S → Prop}
    (hstep : ∀ s l t, I s → C s l → step s l t → I t) (h : Run step s tr t)
    (hC : Along step C s tr) (h0 : I s) : I t := by
  refine h.forward_induction (P := fun tr t => Along step C s tr → I t) (fun _ => h0) ?_ hC
  intro tr t l u hrun ih hs hC
  exact hstep t l u (ih hC.left) (hC.last hrun) hs

/-- **What the steps meet.**  Under an invariant of the steps that meet `C`, each
of them meets what the invariant and `C` imply. -/
theorem Along.of_invariant {I : S → Prop}
    (hstep : ∀ s l t, I s → C s l → step s l t → I t) (hD : ∀ s l, I s → C s l → D s l)
    (hC : Along step C s tr) (h0 : I s) : Along step D s tr := by
  rintro earlier l later t rfl hrun
  have hall : Along step C s (earlier ++ [l]) := by
    have : earlier ++ l :: later = earlier ++ [l] ++ later := by simp
    exact Along.left (this ▸ hC)
  exact hD t l (hrun.invariant_along hstep hall.left h0) (hall.last hrun)

/-- The steps of a run meet `C` if each does in its turn. -/
theorem Along.cons (hs : C s l) (h : ∀ t, step s l t → Along step C t tr) :
    Along step C s (l :: tr) := by
  intro earlier m later t htr hrun
  cases earlier with
  | nil =>
    obtain ⟨rfl, -⟩ := List.cons.inj htr
    obtain rfl := Run.nil_iff.mp hrun
    exact hs
  | cons k earlier =>
    obtain ⟨rfl, rfl⟩ := List.cons.inj htr
    obtain ⟨u, hu, hrest⟩ := Run.cons_iff.mp hrun
    exact h u hu earlier m later t rfl hrest

/-- So it is where a step has one outcome. -/
theorem Along.cons_unique (hfun : ∀ s l t t', step s l t → step s l t' → t = t') (hl : C s l)
    (hs : step s l t) (h : Along step C t tr) : Along step C s (l :: tr) :=
  Along.cons hl fun t' ht' => hfun s l t t' hs ht' ▸ h

theorem Along.nil : Along step C s [] := by
  intro earlier l later t htr
  cases earlier <;> cases htr

end

/-! ## The latest label of a kind -/

section
variable {α : Type*} {f : L → Option α} {tr tr' : List L} {l : L} {a : α}

/-- What the last label that `f` reads says. -/
def latest (f : L → Option α) (tr : List L) : Option α := tr.reverse.findSome? f

theorem latest_snoc : latest f (tr ++ [l]) = (f l).or (latest f tr) := by
  rw [latest, reverse_append, reverse_singleton, singleton_append,
    findSome?_cons]
  cases f l <;> rfl

theorem latest_snoc_none (h : f l = none) : latest f (tr ++ [l]) = latest f tr := by
  rw [latest_snoc, h, Option.none_or]

theorem latest_snoc_some (h : f l = some a) : latest f (tr ++ [l]) = some a := by
  rw [latest_snoc, h, Option.some_or]

/-- A later part that has such a label decides. -/
theorem latest_append : latest f (tr ++ tr') = (latest f tr').or (latest f tr) := by
  rw [latest, reverse_append, findSome?_append]
  rfl

theorem mem_of_latest (h : latest f tr = some a) : ∃ l ∈ tr, f l = some a := by
  obtain ⟨l, hmem, hl⟩ := exists_of_findSome?_eq_some h
  exact ⟨l, mem_reverse.mp hmem, hl⟩

theorem latest_isSome (hmem : l ∈ tr) (h : (f l).isSome) : (latest f tr).isSome :=
  findSome?_isSome_iff.mpr ⟨l, mem_reverse.mpr hmem, h⟩

end

section
variable {act : S → L → Option S} {s t : S} {tr : List L}

/-- Take the steps in order. -/
def perform (act : S → L → Option S) : S → List L → Option S
  | s, [] => some s
  | s, l :: tr => (act s l).bind fun t => perform act t tr

theorem run_of_perform (h : perform act s tr = some t) :
    Run (fun s l t => act s l = some t) s tr t := by
  induction tr generalizing s with
  | nil =>
    obtain rfl := Option.some.inj h
    exact Run.nil s
  | cons l tr ih =>
    obtain ⟨u, hu, hrest⟩ := Option.bind_eq_some_iff.mp h
    exact Run.cons hu (ih hrest)

/-- Each step meets a condition that can be computed, as long as the run goes on. -/
def meets (act : S → L → Option S) (c : S → L → Bool) : S → List L → Bool
  | _, [] => true
  | s, l :: tr => c s l && (act s l).all fun t => meets act c t tr

theorem Along.of_meets {c : S → L → Bool} (h : meets act c s tr = true) :
    Along (fun s l t => act s l = some t) (fun s l => c s l = true) s tr := by
  induction tr generalizing s with
  | nil => exact Along.nil
  | cons l tr ih =>
    obtain ⟨hl, hrest⟩ := Bool.and_eq_true_iff.mp h
    refine Along.cons hl fun t ht => ih ?_
    rw [ht] at hrest
    exact hrest

end
end StateRun
