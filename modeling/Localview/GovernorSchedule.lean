import Mathlib.Data.String.Basic
import Localview.ResourceGovernor

/-! # Scheduling under a budget

`schedule` of `resource-governor/src/lib.rs`: the candidates by priority, then cost, then
id, each taken if it still fits.  Whether it fits is asked of a saturating sum; what has
been taken is added up with `+`, which wraps in a release build.  The two sums part only
at `u64::MAX`, so a budget below it is never overcommitted
(`neverSaturates_of_lt`), and one that is `u64::MAX` is where a candidate passes that does
not fit.

`WithinBudget` is what a schedule should be, in exact sums, and `exactTotals` the sums
that an exact pass has reached.
-/
namespace Localview
open List

/-- Work that asks for resources. -/
structure WorkCandidate where
  id : String
  priority : UInt16
  (estimatedCpuMs estimatedMemoryMb : UInt64)
  requiresChromium : Bool
  deriving DecidableEq

/-- The comparison `schedule` sorts by. -/
def WorkCandidate.order (left right : WorkCandidate) : Ordering :=
  (compare right.priority.toNat left.priority.toNat).then
    ((compare left.estimatedCpuMs.toNat right.estimatedCpuMs.toNat).then
      (compare left.id right.id))

/-- The candidates sorted, equal ones in the order given. -/
def sortedCandidates (candidates : List WorkCandidate) : List WorkCandidate :=
  candidates.mergeSort fun left right => (left.order right).isLE

/-- What is available to a schedule. -/
structure WorkBudget where
  (availableCpuMs availableMemoryMb : UInt64)
  allowChromium : Bool

namespace WorkBudget
variable (budget : WorkBudget)

/-- A candidate that is not passed over for its browser. -/
def eligible (candidate : WorkCandidate) : Bool :=
  !(candidate.requiresChromium && !budget.allowChromium)

/-- The test of the loop: the saturating sums are within what is available. -/
def fitsSaturating (candidate : WorkCandidate) (cpu memory : Nat) : Bool :=
  !(decide (budget.availableCpuMs.toNat < saturatingAdd cpu candidate.estimatedCpuMs.toNat) ||
    decide (budget.availableMemoryMb.toNat <
      saturatingAdd memory candidate.estimatedMemoryMb.toNat))

/-- The loop, from the sums it has reached. -/
def scheduleFrom : UInt64 → UInt64 → List WorkCandidate → List WorkCandidate
  | _, _, [] => []
  | cpu, memory, candidate :: candidates =>
      if !budget.eligible candidate then scheduleFrom cpu memory candidates
      else if !budget.fitsSaturating candidate cpu.toNat memory.toNat then
        scheduleFrom cpu memory candidates
      else
        candidate :: scheduleFrom (cpu + candidate.estimatedCpuMs)
          (memory + candidate.estimatedMemoryMb) candidates

def schedule (candidates : List WorkCandidate) : List WorkCandidate :=
  budget.scheduleFrom 0 0 (sortedCandidates candidates)

end WorkBudget

/-! ## What a schedule should be -/

/-- Higher priority first, then lower cost, then the id. -/
def WorkCandidate.Precedes (left right : WorkCandidate) : Prop :=
  right.priority.toNat < left.priority.toNat ∨
    right.priority.toNat = left.priority.toNat ∧
      (left.estimatedCpuMs.toNat < right.estimatedCpuMs.toNat ∨
        left.estimatedCpuMs.toNat = right.estimatedCpuMs.toNat ∧ left.id ≤ right.id)

/-- The exact sum of what the candidates cost. -/
def totalCpu (candidates : List WorkCandidate) : Nat :=
  (candidates.map fun candidate => candidate.estimatedCpuMs.toNat).sum

/-- The exact sum of what the candidates hold. -/
def totalMemory (candidates : List WorkCandidate) : Nat :=
  (candidates.map fun candidate => candidate.estimatedMemoryMb.toNat).sum

/-- The candidates that were taken, of the decisions made in turn. -/
def taken (decisions : List (WorkCandidate × Bool)) : List WorkCandidate :=
  (decisions.filter Prod.snd).map Prod.fst

namespace WorkBudget
variable (budget : WorkBudget)

/-- A candidate fits into what the sums leave. -/
def Fits (candidate : WorkCandidate) (cpu memory : Nat) : Prop :=
  cpu + candidate.estimatedCpuMs.toNat ≤ budget.availableCpuMs.toNat ∧
    memory + candidate.estimatedMemoryMb.toNat ≤ budget.availableMemoryMb.toNat

instance (candidate : WorkCandidate) (cpu memory : Nat) :
    Decidable (budget.Fits candidate cpu memory) := inferInstanceAs (Decidable (_ ∧ _))

/-- A selection that never overcommits the budget, and rejects only what does not fit. -/
structure WithinBudget (candidates selected : List WorkCandidate) : Prop where
  cpu : totalCpu selected ≤ budget.availableCpuMs.toNat
  memory : totalMemory selected ≤ budget.availableMemoryMb.toNat
  chromium : budget.allowChromium = false → ∀ candidate ∈ selected,
    candidate.requiresChromium = false
  greedy : ∃ decisions : List (WorkCandidate × Bool),
    (decisions.map Prod.fst).Perm candidates ∧
      (decisions.map Prod.fst).Pairwise WorkCandidate.Precedes ∧ taken decisions = selected ∧
        ∀ earlier candidate decision later, decisions = earlier ++ (candidate, decision) :: later →
          budget.eligible candidate = true → decision = false →
            ¬budget.Fits candidate (totalCpu (taken earlier)) (totalMemory (taken earlier))

/-- What an exact pass over the candidates has taken, from the sums on. -/
def exactTotals : Nat × Nat → List WorkCandidate → Nat × Nat
  | totals, [] => totals
  | totals, candidate :: candidates =>
      if budget.eligible candidate ∧ budget.Fits candidate totals.1 totals.2 then
        exactTotals (totals.1 + candidate.estimatedCpuMs.toNat,
          totals.2 + candidate.estimatedMemoryMb.toNat) candidates
      else exactTotals totals candidates

/-- Whenever an exact pass comes to an eligible candidate that passes the saturating
test, the candidate fits. -/
def NeverSaturatesFrom (totals : Nat × Nat) (candidates : List WorkCandidate) : Prop :=
  ∀ earlier candidate later, candidates = earlier ++ candidate :: later →
    budget.eligible candidate = true →
      budget.fitsSaturating candidate (budget.exactTotals totals earlier).1
          (budget.exactTotals totals earlier).2 = true →
        budget.Fits candidate (budget.exactTotals totals earlier).1
          (budget.exactTotals totals earlier).2

/-- No candidate fits only because a sum saturates. -/
def NeverSaturates (candidates : List WorkCandidate) : Prop :=
  budget.NeverSaturatesFrom (0, 0) (sortedCandidates candidates)

end WorkBudget

/-! ## The order -/

namespace WorkCandidate
variable {a b c : WorkCandidate}

theorem isLE_order : (a.order b).isLE = true ↔ a.Precedes b := by
  have hid : (compare a.id b.id).isLE = true ↔ a.id ≤ b.id := by
    rw [← compare_le_iff_le]
    exact Ordering.ne_gt_iff_isLE.symm
  unfold order Precedes
  rw [Ordering.isLE_then_iff_or, Ordering.isLE_then_iff_or, compare_lt_iff_lt, compare_eq_iff_eq,
    compare_lt_iff_lt, compare_eq_iff_eq, hid]

theorem Precedes.trans (hab : a.Precedes b) (hbc : b.Precedes c) : a.Precedes c := by
  unfold Precedes at hab hbc ⊢
  rcases hab with hab | ⟨hpriority, hab⟩
  · exact .inl (by omega)
  rcases hbc with hbc | ⟨hpriority', hbc⟩
  · exact .inl (by omega)
  refine .inr ⟨by omega, ?_⟩
  rcases hab with hab | ⟨hcost, hab⟩
  · exact .inl (by omega)
  rcases hbc with hbc | ⟨hcost', hbc⟩
  · exact .inl (by omega)
  · exact .inr ⟨by omega, hab.trans hbc⟩

theorem precedes_total : a.Precedes b ∨ b.Precedes a := by
  unfold Precedes
  by_cases hpriority : a.priority.toNat = b.priority.toNat
  · by_cases hcost : a.estimatedCpuMs.toNat = b.estimatedCpuMs.toNat
    · rcases le_total a.id b.id with hid | hid
      · exact .inl (.inr ⟨hpriority.symm, .inr ⟨hcost, hid⟩⟩)
      · exact .inr (.inr ⟨hpriority, .inr ⟨hcost.symm, hid⟩⟩)
    · rcases Nat.lt_or_gt_of_ne hcost with hlt | hgt
      · exact .inl (.inr ⟨hpriority.symm, .inl hlt⟩)
      · exact .inr (.inr ⟨hpriority, .inl hgt⟩)
  · rcases Nat.lt_or_gt_of_ne hpriority with hlt | hgt
    · exact .inr (.inl hlt)
    · exact .inl (.inl hgt)

end WorkCandidate

theorem perm_sortedCandidates {candidates : List WorkCandidate} :
    (sortedCandidates candidates).Perm candidates := mergeSort_perm _ _

theorem pairwise_sortedCandidates {candidates : List WorkCandidate} :
    (sortedCandidates candidates).Pairwise WorkCandidate.Precedes := by
  have htrans : ∀ a b c : WorkCandidate, (a.order b).isLE = true → (b.order c).isLE = true →
      (a.order c).isLE = true := by
    intro a b c hab hbc
    rw [WorkCandidate.isLE_order] at hab hbc ⊢
    exact hab.trans hbc
  have htotal : ∀ a b : WorkCandidate, ((a.order b).isLE || (b.order a).isLE) = true := by
    intro a b
    rw [Bool.or_eq_true, WorkCandidate.isLE_order, WorkCandidate.isLE_order]
    exact WorkCandidate.precedes_total
  exact (pairwise_mergeSort htrans htotal candidates).imp WorkCandidate.isLE_order.mp

/-! ## What an exact pass decides -/

@[simp] theorem totalCpu_cons {c : WorkCandidate} {cs : List WorkCandidate} :
    totalCpu (c :: cs) = c.estimatedCpuMs.toNat + totalCpu cs := by
  simp [totalCpu]

@[simp] theorem totalMemory_cons {c : WorkCandidate} {cs : List WorkCandidate} :
    totalMemory (c :: cs) = c.estimatedMemoryMb.toNat + totalMemory cs := by
  simp [totalMemory]

namespace WorkBudget
variable {budget : WorkBudget} {candidate : WorkCandidate} {candidates : List WorkCandidate}
  {cpu memory : UInt64} {totals : Nat × Nat}

/-- The decisions of an exact pass, from the sums on. -/
def decisions (budget : WorkBudget) : Nat × Nat → List WorkCandidate → List (WorkCandidate × Bool)
  | _, [] => []
  | totals, candidate :: candidates =>
      if budget.eligible candidate ∧ budget.Fits candidate totals.1 totals.2 then
        (candidate, true) :: decisions budget (totals.1 + candidate.estimatedCpuMs.toNat,
          totals.2 + candidate.estimatedMemoryMb.toNat) candidates
      else (candidate, false) :: decisions budget totals candidates

theorem decisions_fst : (budget.decisions totals candidates).map Prod.fst = candidates := by
  induction candidates generalizing totals with
  | nil => rfl
  | cons candidate candidates ih =>
    rw [decisions]
    split_ifs
    · rw [map_cons, ih]
    · rw [map_cons, ih]

/-- What an exact pass takes is eligible. -/
theorem eligible_of_taken {c : WorkCandidate}
    (h : c ∈ taken (budget.decisions totals candidates)) : budget.eligible c = true := by
  induction candidates generalizing totals with
  | nil => cases h
  | cons candidate candidates ih =>
    rw [decisions] at h
    split_ifs at h with htaken
    · rcases mem_cons.mp h with rfl | h
      · exact htaken.1
      · exact ih h
    · exact ih h

/-- What an exact pass takes stays within what is available. -/
theorem total_taken_le (hcpu : totals.1 ≤ budget.availableCpuMs.toNat)
    (hmemory : totals.2 ≤ budget.availableMemoryMb.toNat) :
    totals.1 + totalCpu (taken (budget.decisions totals candidates)) ≤
        budget.availableCpuMs.toNat ∧
      totals.2 + totalMemory (taken (budget.decisions totals candidates)) ≤
        budget.availableMemoryMb.toNat := by
  induction candidates generalizing totals with
  | nil => exact ⟨hcpu, hmemory⟩
  | cons candidate candidates ih =>
    rw [decisions]
    split_ifs with htaken
    · obtain ⟨-, hfits⟩ := htaken
      have hrest := @ih (totals.1 + candidate.estimatedCpuMs.toNat,
        totals.2 + candidate.estimatedMemoryMb.toNat) hfits.1 hfits.2
      simp only [taken, filter_cons, if_true, map_cons, totalCpu_cons,
        totalMemory_cons] at hrest ⊢
      omega
    · exact ih hcpu hmemory

/-- What an exact pass rejects is not eligible or does not fit. -/
theorem not_fits_of_rejected {earlier later : List (WorkCandidate × Bool)}
    (h : budget.decisions totals candidates = earlier ++ (candidate, false) :: later)
    (heligible : budget.eligible candidate = true) :
    ¬budget.Fits candidate (totals.1 + totalCpu (taken earlier))
      (totals.2 + totalMemory (taken earlier)) := by
  induction candidates generalizing totals earlier with
  | nil => cases earlier <;> cases h
  | cons first candidates ih =>
    rw [decisions] at h
    split_ifs at h with htaken
    · cases earlier with
      | nil => cases h
      | cons decision earlier =>
        obtain ⟨rfl, hlater⟩ := List.cons.inj h
        have hrest := ih hlater
        simp only [taken, filter_cons, if_true, map_cons, totalCpu_cons,
          totalMemory_cons] at hrest ⊢
        rwa [Nat.add_assoc, Nat.add_assoc] at hrest
    · cases earlier with
      | nil =>
        obtain ⟨hsame, -⟩ := List.cons.inj h
        obtain ⟨rfl, -⟩ := Prod.mk.inj hsame
        exact fun hfits => htaken ⟨heligible, hfits⟩
      | cons decision earlier =>
        obtain ⟨rfl, hlater⟩ := List.cons.inj h
        have hrest := ih hlater
        exact hrest

/-! ## The two sums -/

/-- A candidate that fits passes the saturating test. -/
theorem Fits.saturating {cpu memory : Nat} (h : budget.Fits candidate cpu memory) :
    budget.fitsSaturating candidate cpu memory = true := by
  obtain ⟨hcpu, hmemory⟩ := h
  unfold fitsSaturating saturatingAdd
  simp only [Bool.not_eq_true', Bool.or_eq_false_iff, decide_eq_false_iff_not, not_lt]
  exact ⟨(Nat.min_le_left _ _).trans hcpu, (Nat.min_le_left _ _).trans hmemory⟩

/-- A condition on all candidates is one on the first, and on the others after it. -/
theorem neverSaturatesFrom_cons :
    budget.NeverSaturatesFrom totals (candidate :: candidates) ↔
      (budget.eligible candidate = true →
        budget.fitsSaturating candidate totals.1 totals.2 = true →
          budget.Fits candidate totals.1 totals.2) ∧
        budget.NeverSaturatesFrom (budget.exactTotals totals [candidate]) candidates := by
  have hstep : ∀ earlier, budget.exactTotals totals (candidate :: earlier) =
      budget.exactTotals (budget.exactTotals totals [candidate]) earlier := by
    intro earlier
    rw [exactTotals, exactTotals]
    split_ifs <;> rfl
  constructor
  · intro h
    refine ⟨h [] candidate candidates rfl, ?_⟩
    rintro earlier c later rfl
    rw [← hstep]
    exact h (candidate :: earlier) c later rfl
  · rintro ⟨hfirst, hrest⟩ earlier c later hsplit
    cases earlier with
    | nil =>
      obtain ⟨rfl, -⟩ := List.cons.inj hsplit
      exact hfirst
    | cons _ earlier =>
      obtain ⟨rfl, hlater⟩ := List.cons.inj hsplit
      rw [hstep]
      exact hrest earlier c later hlater

/-- The sums do not wrap where the candidate fits. -/
theorem Fits.toNat_add (h : budget.Fits candidate cpu.toNat memory.toNat) :
    (cpu + candidate.estimatedCpuMs).toNat = cpu.toNat + candidate.estimatedCpuMs.toNat ∧
      (memory + candidate.estimatedMemoryMb).toNat =
        memory.toNat + candidate.estimatedMemoryMb.toNat := by
  obtain ⟨hcpu, hmemory⟩ := h
  have hcpuMax := budget.availableCpuMs.toNat_lt
  have hmemoryMax := budget.availableMemoryMb.toNat_lt
  rw [UInt64.toNat_add, UInt64.toNat_add]
  omega

/-- While no sum saturates, the loop takes what an exact pass takes. -/
theorem scheduleFrom_eq_taken
    (h : budget.NeverSaturatesFrom (cpu.toNat, memory.toNat) candidates) :
    budget.scheduleFrom cpu memory candidates =
      taken (budget.decisions (cpu.toNat, memory.toNat) candidates) := by
  induction candidates generalizing cpu memory with
  | nil => rfl
  | cons candidate candidates ih =>
    obtain ⟨hfirst, hrest⟩ := neverSaturatesFrom_cons.mp h
    rw [scheduleFrom, decisions]
    by_cases heligible : budget.eligible candidate = true
    · by_cases hfits : budget.Fits candidate cpu.toNat memory.toNat
      · obtain ⟨hcpu, hmemory⟩ := hfits.toNat_add
        rw [exactTotals, if_pos ⟨heligible, hfits⟩, exactTotals, ← hcpu, ← hmemory] at hrest
        have hsaturating : budget.fitsSaturating candidate cpu.toNat memory.toNat = true :=
          Fits.saturating hfits
        simp only [heligible, hsaturating, hfits, Bool.not_true, Bool.false_eq_true, if_false,
          and_self, if_true, ih hrest, hcpu, hmemory]
        rfl
      · rw [exactTotals, if_neg (fun htaken => hfits htaken.2), exactTotals] at hrest
        have hsaturating : budget.fitsSaturating candidate cpu.toNat memory.toNat = false :=
          Bool.eq_false_iff.mpr fun hpasses => hfits (hfirst heligible hpasses)
        simp only [heligible, hsaturating, hfits, Bool.not_true, Bool.not_false,
          Bool.false_eq_true, if_false, and_false, if_true, ih hrest]
        rfl
    · rw [exactTotals, if_neg (fun htaken => heligible htaken.1), exactTotals] at hrest
      simp only [heligible, Bool.not_eq_true] at heligible ⊢
      simp only [Bool.not_false, Bool.false_eq_true, if_true, false_and, if_false, ih hrest]
      rfl

/-- Where a sum saturates, more is taken than is available. -/
theorem overcommits_of_saturates
    (h : ¬budget.NeverSaturatesFrom (cpu.toNat, memory.toNat) candidates) :
    budget.availableCpuMs.toNat <
        cpu.toNat + totalCpu (budget.scheduleFrom cpu memory candidates) ∨
      budget.availableMemoryMb.toNat <
        memory.toNat + totalMemory (budget.scheduleFrom cpu memory candidates) := by
  induction candidates generalizing cpu memory with
  | nil =>
    refine absurd ?_ h
    intro earlier c later hsplit
    cases earlier <;> cases hsplit
  | cons candidate candidates ih =>
    rw [neverSaturatesFrom_cons] at h
    rw [scheduleFrom]
    by_cases heligible : budget.eligible candidate = true
    · by_cases hsaturating : budget.fitsSaturating candidate cpu.toNat memory.toNat = true
      · simp only [heligible, hsaturating, Bool.not_true, Bool.false_eq_true, if_false,
          totalCpu_cons, totalMemory_cons]
        by_cases hfits : budget.Fits candidate cpu.toNat memory.toNat
        · obtain ⟨hcpu, hmemory⟩ := hfits.toNat_add
          have hrest : ¬budget.NeverSaturatesFrom ((cpu + candidate.estimatedCpuMs).toNat,
              (memory + candidate.estimatedMemoryMb).toNat) candidates := by
            intro hrest
            refine h ⟨fun _ _ => hfits, ?_⟩
            rwa [exactTotals, if_pos ⟨heligible, hfits⟩, exactTotals, ← hcpu, ← hmemory]
          have hover := ih hrest
          omega
        · -- the candidate is taken here although it does not fit
          unfold Fits at hfits
          omega
      · simp only [heligible, hsaturating, Bool.not_true, Bool.not_false, Bool.false_eq_true,
          if_false, if_true]
        refine ih fun hrest => h ⟨fun _ hpasses => absurd hpasses hsaturating, ?_⟩
        rwa [exactTotals, if_neg, exactTotals]
        exact fun htaken => hsaturating (Fits.saturating htaken.2)
    · simp only [heligible, Bool.not_false, if_true]
      refine ih fun hrest => h ⟨fun hpasses => absurd hpasses heligible, ?_⟩
      rwa [exactTotals, if_neg (fun htaken => heligible htaken.1), exactTotals]

/-- **A schedule overcommits exactly where a sum saturates.**  The selection is within the
budget in exact sums, without a disallowed browser, and with nothing rejected that fits,
if and only if no candidate passes the saturating test without fitting. -/
theorem schedule_withinBudget_iff (budget : WorkBudget) (candidates : List WorkCandidate) :
    budget.WithinBudget candidates (budget.schedule candidates) ↔
      budget.NeverSaturates candidates := by
  constructor
  · intro hwithin
    by_contra hsaturates
    have hover := @overcommits_of_saturates budget _ 0 0 hsaturates
    have hcpu := hwithin.cpu
    have hmemory := hwithin.memory
    unfold schedule at hcpu hmemory
    simp only [UInt64.toNat_zero, Nat.zero_add] at hover
    omega
  · intro hnever
    have heq : budget.schedule candidates =
        taken (budget.decisions (0, 0) (sortedCandidates candidates)) :=
      @scheduleFrom_eq_taken budget _ 0 0 hnever
    have htotal := @total_taken_le budget (sortedCandidates candidates) (0, 0) (Nat.zero_le _)
      (Nat.zero_le _)
    simp only [Nat.zero_add] at htotal
    rw [heq]
    refine ⟨htotal.1, htotal.2, ?_, ?_⟩
    · intro hdisallowed candidate hmem
      have heligible := eligible_of_taken hmem
      unfold eligible at heligible
      simpa [hdisallowed] using heligible
    · refine ⟨_, ?_, ?_, rfl, ?_⟩
      · rw [decisions_fst]
        exact perm_sortedCandidates
      · rw [decisions_fst]
        exact pairwise_sortedCandidates
      · rintro earlier candidate decision later hsplit heligible rfl
        simpa only [Nat.zero_add] using not_fits_of_rejected hsplit heligible

/-- Nothing saturates into a budget below `u64::MAX`. -/
theorem neverSaturates_of_lt (hcpu : budget.availableCpuMs.toNat < u64Max)
    (hmemory : budget.availableMemoryMb.toNat < u64Max) : budget.NeverSaturates candidates := by
  intro earlier c later _ _ hpasses
  unfold fitsSaturating saturatingAdd at hpasses
  simp only [Bool.not_eq_true', Bool.or_eq_false_iff, decide_eq_false_iff_not, not_lt] at hpasses
  exact ⟨by omega, by omega⟩

end WorkBudget

def unlimitedBudget : WorkBudget :=
  { availableCpuMs := 18446744073709551615, availableMemoryMb := 18446744073709551615,
    allowChromium := true }

/-- Two candidates that each take all the time there is. -/
def endlessWork : List WorkCandidate :=
  [{ id := "a", priority := 2, estimatedCpuMs := 18446744073709551615, estimatedMemoryMb := 1,
     requiresChromium := false },
    { id := "b", priority := 1, estimatedCpuMs := 18446744073709551615, estimatedMemoryMb := 1,
      requiresChromium := false }]

/-- Both are taken, twice the time that is available. -/
theorem schedule_endlessWork :
    ¬unlimitedBudget.WithinBudget endlessWork (unlimitedBudget.schedule endlessWork) ∧
      unlimitedBudget.schedule endlessWork = endlessWork ∧
        totalCpu endlessWork = 2 * unlimitedBudget.availableCpuMs.toNat := by
  have hsorted : sortedCandidates endlessWork = endlessWork :=
    mergeSort_of_pairwise (by decide +kernel)
  have hschedule : unlimitedBudget.schedule endlessWork = endlessWork := by
    rw [WorkBudget.schedule, hsorted]
    decide +kernel
  have htotal : totalCpu endlessWork = 2 * unlimitedBudget.availableCpuMs.toNat := by
    decide +kernel
  refine ⟨?_, hschedule, htotal⟩
  intro hwithin
  have hcpu := hwithin.cpu
  rw [hschedule, htotal] at hcpu
  revert hcpu
  decide

end Localview
