import Localview.InteractionGraph

/-! # Receipts of replayed flows

A plan is replayed by holding each step against the states observed before and after it.  The
receipt says how many steps passed and which state the replay ended in.
-/
namespace Localview
open List InteractionGraph

def StateIdentity.compatibleWith (expected actual : StateIdentity) : Bool :=
  expected.route = actual.route && expected.documentGeneration = actual.documentGeneration &&
    expected.semanticFingerprint = actual.semanticFingerprint &&
    expected.viewport = actual.viewport

/-- An action and the states it expects. -/
structure ReplayStep where
  index : Nat
  action : InteractionActionKind
  target : String
  (expectedBefore expectedAfter : StateIdentity)
  evidenceRefs : List String

/-- How far a replay came. -/
inductive ReplayStatus
  | complete | failed | inconclusive
  deriving DecidableEq

structure ReplayReceipt where
  (stepsAttempted stepsPassed : Nat)
  firstFailedStep : Option Nat
  (beforeState afterState : StateIdentity)
  evidenceRefs : List String
  status : ReplayStatus
  reason : Option String

def unobservedState : StateIdentity :=
  { route := "", documentGeneration := 0, semanticFingerprint := "", viewport := none }

section
variable (plan : List ReplayStep) (observed : List StateIdentity) (refsValid : List Bool)

/-- The state the receipt starts from. -/
def replayStart : StateIdentity :=
  ((plan.head?.map (·.expectedBefore)).or observed.head?).getD unobservedState

def failedReplay (evidenceRefs : List String) (failed passed : Nat) (reason : String) :
    ReplayReceipt :=
  let beforeState := (plan.head?.map (·.expectedBefore)).getD unobservedState
  { stepsAttempted := failed + 1, stepsPassed := passed, firstFailedStep := some failed
    beforeState, afterState := observed[failed]?.getD beforeState, evidenceRefs
    status := .failed, reason := some reason }

/-- Why a step fails. -/
def stepFailure (index : Nat) (step : ReplayStep) : Option String :=
  if refsValid[index]? ≠ some true then some "stable_ref_invalid"
  else
    match observed[index]? with
    | none => some "missing_before_state"
    | some before =>
      if !step.expectedBefore.compatibleWith before then some "pre_state_mismatch"
      else
        match observed[index + 1]? with
        | none => some "missing_after_state"
        | some after =>
          if !step.expectedAfter.compatibleWith after then some "post_state_mismatch" else none

def completeReplay (evidenceRefs : List String) (passed : Nat) : ReplayReceipt :=
  { stepsAttempted := plan.length, stepsPassed := passed, firstFailedStep := none
    beforeState := replayStart plan observed
    afterState := (observed.getLast?.or (plan.getLast?.map (·.expectedAfter))).getD
      unobservedState
    evidenceRefs, status := .complete, reason := none }

/-- The loop of `replay_receipt` over the steps that are left. -/
def replaySteps : List ReplayStep → (index passed : Nat) → (evidenceRefs : List String) →
    ReplayReceipt
  | [], _, passed, evidenceRefs => completeReplay plan observed evidenceRefs passed
  | step :: rest, index, passed, evidenceRefs =>
    match stepFailure observed refsValid index step with
    | some reason => failedReplay plan observed evidenceRefs index passed reason
    | none => replaySteps rest (index + 1) (passed + 1)
        (evidenceRefs ++ step.evidenceRefs.take maxEvidenceRefsPerEdge)

def replayReceipt : ReplayReceipt :=
  if plan.isEmpty then
    { stepsAttempted := 0, stepsPassed := 0, firstFailedStep := none
      beforeState := replayStart plan observed, afterState := replayStart plan observed
      evidenceRefs := [], status := .inconclusive, reason := some "empty_plan" }
  else replaySteps plan observed refsValid plan 0 0 []

/-- The step has a valid reference and was observed between the states it expects. -/
def StepPasses (i : Nat) (step : ReplayStep) : Prop :=
  refsValid[i]? = some true ∧
    ∃ before after, observed[i]? = some before ∧ observed[i + 1]? = some after ∧
      step.expectedBefore.compatibleWith before = true ∧
      step.expectedAfter.compatibleWith after = true

/-- The first `n` steps pass. -/
def PrefixPasses (n : Nat) : Prop :=
  ∀ i step, i < n → plan[i]? = some step → StepPasses observed refsValid i step

/-- The receipt says what happened. -/
structure FaithfulReceipt (receipt : ReplayReceipt) : Prop where
  complete_iff : receipt.status = .complete ↔
    ∀ i step, plan[i]? = some step → StepPasses observed refsValid i step
  /-- The passed steps are the longest passing beginning of the plan. -/
  longest : receipt.stepsPassed ≤ plan.length ∧
    PrefixPasses plan observed refsValid receipt.stepsPassed ∧
    ∀ n, n ≤ plan.length → PrefixPasses plan observed refsValid n → n ≤ receipt.stepsPassed
  after : observed[receipt.stepsPassed]? = some receipt.afterState

variable {plan observed refsValid} {i n index passed : Nat} {step : ReplayStep}
  {rest : List ReplayStep}

theorem stepFailure_eq_none : stepFailure observed refsValid i step = none ↔
    StepPasses observed refsValid i step := by
  unfold stepFailure StepPasses
  by_cases href : refsValid[i]? = some true
  · rw [if_neg (not_not.mpr href)]
    cases hbefore : observed[i]? with
    | none => simp
    | some before =>
      cases hpre : step.expectedBefore.compatibleWith before with
      | false => simp [hpre]
      | true =>
        cases hafter : observed[i + 1]? with
        | none => simp [hpre]
        | some after =>
          cases hpost : step.expectedAfter.compatibleWith after <;> simp [hpre, hpost, href]
  · simp [href]

/-- How the loop ends: the steps up to `n` pass, and either that is the whole plan or the next
one fails. -/
theorem replaySteps_spec (evidenceRefs : List String) (hindex : plan.drop index = rest)
    (hpassed : passed = index) (hle : index ≤ plan.length)
    (hdone : PrefixPasses plan observed refsValid index) :
    ∃ n evidence, PrefixPasses plan observed refsValid n ∧
      (n = plan.length ∧ replaySteps plan observed refsValid rest index passed evidenceRefs =
          completeReplay plan observed evidence n ∨
        (∃ failing, plan[n]? = some failing ∧ ¬StepPasses observed refsValid n failing) ∧
          ∃ reason, replaySteps plan observed refsValid rest index passed evidenceRefs =
            failedReplay plan observed evidence n n reason) := by
  subst hpassed
  induction rest generalizing passed evidenceRefs with
  | nil =>
    have hend : passed = plan.length :=
      Nat.le_antisymm hle (drop_eq_nil_iff.mp hindex)
    exact ⟨passed, evidenceRefs, hdone, .inl ⟨hend, rfl⟩⟩
  | cons step rest ih =>
    have hstep : plan[passed]? = some step := by
      rw [← head?_drop, hindex]
      rfl
    cases hfail : stepFailure observed refsValid passed step with
    | some reason =>
      refine ⟨passed, evidenceRefs, hdone, .inr ⟨⟨step, hstep, ?_⟩, reason, ?_⟩⟩
      · rw [← stepFailure_eq_none, hfail]
        exact Option.some_ne_none reason
      · rw [replaySteps, hfail]
    | none =>
      have hrest : plan.drop (passed + 1) = rest := by
        rw [← List.tail_drop, hindex]
        rfl
      have hlt : passed < plan.length := (List.getElem?_eq_some_iff.mp hstep).1
      have hnext : PrefixPasses plan observed refsValid (passed + 1) := by
        intro i s hi hs
        by_cases hold : i < passed
        · exact hdone i s hold hs
        · obtain rfl : i = passed := by omega
          rw [hstep] at hs
          cases hs
          exact stepFailure_eq_none.mp hfail
      rw [replaySteps, hfail]
      exact ih _ hrest hlt hnext

theorem prefixPasses_length : PrefixPasses plan observed refsValid plan.length ↔
    ∀ i step, plan[i]? = some step → StepPasses observed refsValid i step := by
  constructor
  · intro h i step hstep
    exact h i step (List.getElem?_eq_some_iff.mp hstep).1 hstep
  · intro h i step _ hstep
    exact h i step hstep

/-- No beginning that reaches past a failing step passes. -/
theorem le_of_prefixPasses {m : Nat} (hm : PrefixPasses plan observed refsValid m)
    (hstep : plan[n]? = some step) (hfail : ¬StepPasses observed refsValid n step) : m ≤ n := by
  by_contra hlt
  exact hfail (hm n step (Nat.not_le.mp hlt) hstep)

/-- After steps that pass there is an observed state. -/
theorem observed_of_prefixPasses (hobserved : observed ≠ []) (hle : n ≤ plan.length)
    (h : PrefixPasses plan observed refsValid n) : ∃ state, observed[n]? = some state := by
  cases n with
  | zero =>
    cases observed with
    | nil => exact absurd rfl hobserved
    | cons state rest => exact ⟨state, rfl⟩
  | succ n =>
    obtain ⟨step, hstep⟩ : ∃ step, plan[n]? = some step :=
      ⟨_, getElem?_eq_getElem (by omega)⟩
    obtain ⟨-, -, after, -, hafter, -⟩ := h n step (Nat.lt_succ_self n) hstep
    exact ⟨after, hafter⟩

/-- **A receipt is faithful exactly if something was observed, and nothing beyond a plan that
passes.** -/
theorem replayReceipt_faithful_iff (hplan : plan ≠ []) :
    FaithfulReceipt plan observed refsValid (replayReceipt plan observed refsValid) ↔
      observed ≠ [] ∧ ((∀ i step, plan[i]? = some step → StepPasses observed refsValid i step) →
        observed.getLast? = observed[plan.length]?) := by
  have hloop : replayReceipt plan observed refsValid =
      replaySteps plan observed refsValid plan 0 0 [] := by
    rw [replayReceipt, if_neg]
    simpa using hplan
  have hnone : PrefixPasses plan observed refsValid 0 := fun i _ hi => absurd hi (Nat.not_lt_zero i)
  obtain ⟨n, evidence, hpasses, ⟨rfl, heq⟩ | ⟨⟨step, hstep, hfail⟩, reason, heq⟩⟩ :=
    replaySteps_spec [] drop_zero rfl (Nat.zero_le plan.length) hnone
  · -- the whole plan passes
    rw [hloop, heq]
    have hall := prefixPasses_length.mp hpasses
    have hlast (hobserved : observed ≠ []) : observed.getLast? =
        some (completeReplay plan observed evidence plan.length).afterState := by
      rw [completeReplay, getLast?_eq_some_getLast hobserved]
      rfl
    constructor
    · intro h
      have hafter := h.after
      have hobserved : observed ≠ [] := by
        rintro rfl
        cases hafter
      refine ⟨hobserved, fun _ => ?_⟩
      rw [hlast hobserved]
      exact hafter.symm
    · rintro ⟨hobserved, hend⟩
      refine ⟨⟨fun _ => hall, fun _ => rfl⟩, ⟨Nat.le_refl _, hpasses, fun m hm _ => hm⟩, ?_⟩
      exact (hend hall).symm.trans (hlast hobserved)
  · -- the step at `n` fails
    rw [hloop, heq]
    have hlt : n < plan.length := (List.getElem?_eq_some_iff.mp hstep).1
    constructor
    · intro h
      have hafter := h.after
      refine ⟨?_, fun hall => absurd (hall n step hstep) hfail⟩
      rintro rfl
      cases hafter
    · rintro ⟨hobserved, -⟩
      obtain ⟨state, hstate⟩ := observed_of_prefixPasses hobserved hlt.le hpasses
      refine ⟨⟨fun h => ?_, fun hall => absurd (hall n step hstep) hfail⟩,
        ⟨hlt.le, hpasses, fun m _ hm => le_of_prefixPasses hm hstep hfail⟩, ?_⟩
      · cases h
      · show observed[n]? = some (observed[n]?.getD _)
        rw [hstate]
        rfl

end

/-! A plan of one click, and one state more than it accounts for. -/

def menuPlan : List ReplayStep :=
  [{ index := 0, action := .click, target := "@e1"
     expectedBefore := pageState "/" 1 "a"
     expectedAfter := pageState "/" 1 "b", evidenceRefs := [] }]

def menuStates : List StateIdentity :=
  [pageState "/" 1 "a", pageState "/" 1 "b"]

/-- The click again, where it leads elsewhere than it should. -/
def brokenPlan : List ReplayStep :=
  menuPlan ++ [{ index := 1, action := .click, target := "@e1"
                 expectedBefore := pageState "/" 1 "b"
                 expectedAfter := pageState "/" 1 "a", evidenceRefs := [] }]

theorem brokenPlan_faithful :
    let observed := menuStates ++ [pageState "/" 1 "c"]
    FaithfulReceipt brokenPlan observed [true, true]
      (replayReceipt brokenPlan observed [true, true]) := by
  refine (replayReceipt_faithful_iff (by decide)).mpr ⟨by decide, fun hall => ?_⟩
  obtain ⟨-, before, after, -, hafter, -, hcompatible⟩ := hall 1 _ rfl
  cases hafter
  exact absurd hcompatible (by decide)

theorem laterState_reported :
    (replayReceipt menuPlan (menuStates ++ [pageState "/" 1 "c"])
        [true]).status = .complete ∧
      ¬FaithfulReceipt menuPlan (menuStates ++ [pageState "/" 1 "c"]) [true]
        (replayReceipt menuPlan (menuStates ++ [pageState "/" 1 "c"])
          [true]) := by
  refine ⟨by decide +kernel, fun h => ?_⟩
  have hafter := h.after
  revert hafter
  decide +kernel

end Localview
