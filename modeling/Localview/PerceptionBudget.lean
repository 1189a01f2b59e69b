import Localview.ResourceGovernor
import Localview.StateSpace
import Localview.VisualImage

/-! # The perception budget

What one diagnose and fix cycle may cost in four dimensions, and the planner that picks the
next observation: the candidates by what they inform for their cost, the first that the
budget takes on top of what is spent.  A signal of the cycle may authorize an overrun, and
the decision records it.
-/
namespace Localview
open List Score32

/-- `u64::saturating_add` -/
def satAdd64 (x y : UInt64) : UInt64 := .ofNat (saturatingAdd x.toNat y.toNat)

/-- `u64::saturating_sub` -/
def satSub64 (x y : UInt64) : UInt64 := .ofNat (x.toNat - y.toNat)

/-- `u32::saturating_add` -/
def satAdd32 (x y : UInt32) : UInt32 := .ofNat (min (x.toNat + y.toNat) u32Max)

/-- `u32::saturating_sub` -/
def satSub32 (x y : UInt32) : UInt32 := .ofNat (x.toNat - y.toNat)

@[simp] theorem toNat_satAdd64 (x y : UInt64) :
    (satAdd64 x y).toNat = min (x.toNat + y.toNat) u64Max := by
  have hlt : min (x.toNat + y.toNat) u64Max < 2 ^ 64 := by
    rw [u64Max]
    omega
  exact UInt64.toNat_ofNat_of_lt' hlt

@[simp] theorem toNat_satSub64 (x y : UInt64) : (satSub64 x y).toNat = x.toNat - y.toNat :=
  UInt64.toNat_ofNat_of_lt' (Nat.lt_of_le_of_lt (Nat.sub_le _ _) x.toNat_lt)

@[simp] theorem toNat_satAdd32 (x y : UInt32) :
    (satAdd32 x y).toNat = min (x.toNat + y.toNat) u32Max := by
  have hlt : min (x.toNat + y.toNat) u32Max < 2 ^ 32 := by
    rw [u32Max]
    omega
  exact UInt32.toNat_ofNat_of_lt' hlt

@[simp] theorem toNat_satSub32 (x y : UInt32) : (satSub32 x y).toNat = x.toNat - y.toNat :=
  UInt32.toNat_ofNat_of_lt' (Nat.lt_of_le_of_lt (Nat.sub_le _ _) x.toNat_lt)

/-! ## The contract -/

/-- What may be spent. -/
structure PerceptionBudgetContract where
  (latencyMs textTokens imageRegions : UInt64)
  chromiumSpawns : UInt32

/-- What is spent. -/
structure PerceptionBudgetUsage where
  (latencyMs textTokens imageRegions : UInt64)
  chromiumSpawns : UInt32

/-- What a budget is spent on. -/
inductive BudgetDimension
  | latencyMs
  | textTokens
  | imageRegions
  | chromiumSpawns

/-- The greatest number of a dimension's type. -/
def BudgetDimension.greatest : BudgetDimension → Nat
  | .chromiumSpawns => u32Max
  | _ => u64Max

def PerceptionBudgetContract.limit (budget : PerceptionBudgetContract) : BudgetDimension → Nat
  | .latencyMs => budget.latencyMs.toNat
  | .textTokens => budget.textTokens.toNat
  | .imageRegions => budget.imageRegions.toNat
  | .chromiumSpawns => budget.chromiumSpawns.toNat

def PerceptionBudgetUsage.amount (usage : PerceptionBudgetUsage) : BudgetDimension → Nat
  | .latencyMs => usage.latencyMs.toNat
  | .textTokens => usage.textTokens.toNat
  | .imageRegions => usage.imageRegions.toNat
  | .chromiumSpawns => usage.chromiumSpawns.toNat

/-- Why more than the budget may be spent. -/
inductive BudgetEscalationReason
  | criticalIssue
  | explicitDeepMode
  | insufficientEvidence
  | browserSpecificSuspicion

/-- Whether the budget was enough. -/
inductive PerceptionBudgetDecisionStatus
  | withinBudget
  | escalated

/-- Whether what is spent may be. -/
structure PerceptionBudgetDecision where
  status : PerceptionBudgetDecisionStatus
  budget : PerceptionBudgetContract
  usage : PerceptionBudgetUsage
  exceeded : List BudgetDimension
  budgetEscalationReason : Option BudgetEscalationReason

/-- What went over the budget. -/
structure PerceptionBudgetViolation where
  budget : PerceptionBudgetContract
  usage : PerceptionBudgetUsage
  exceeded : List BudgetDimension

def exceededDimensions (budget : PerceptionBudgetContract) (usage : PerceptionBudgetUsage) :
    List BudgetDimension :=
  [BudgetDimension.latencyMs, BudgetDimension.textTokens, BudgetDimension.imageRegions,
    BudgetDimension.chromiumSpawns].filter fun dimension =>
      budget.limit dimension < usage.amount dimension

def evaluatePerceptionBudget (budget : PerceptionBudgetContract) (usage : PerceptionBudgetUsage)
    (escalationReason : Option BudgetEscalationReason) :
    Except PerceptionBudgetViolation PerceptionBudgetDecision :=
  let exceeded := exceededDimensions budget usage
  if exceeded.isEmpty then .ok ⟨.withinBudget, budget, usage, exceeded, none⟩
  else
    match escalationReason with
    | none => .error ⟨budget, usage, exceeded⟩
    | some reason => .ok ⟨.escalated, budget, usage, exceeded, some reason⟩

theorem mem_exceededDimensions {budget : PerceptionBudgetContract} {usage : PerceptionBudgetUsage}
    {dimension : BudgetDimension} : dimension ∈ exceededDimensions budget usage ↔
      budget.limit dimension < usage.amount dimension := by
  rw [exceededDimensions, mem_filter, decide_eq_true_iff]
  refine and_iff_right ?_
  cases dimension <;> simp

/-- A decision is made on the usage asked about: within the budget, or by the reason given. -/
theorem evaluatePerceptionBudget_eq_ok {budget : PerceptionBudgetContract}
    {usage : PerceptionBudgetUsage} {reason : Option BudgetEscalationReason}
    {decision : PerceptionBudgetDecision}
    (h : evaluatePerceptionBudget budget usage reason = .ok decision) :
    decision.usage = usage ∧ decision.budget = budget ∧
      ((decision.budgetEscalationReason = none ∧
          ∀ dimension, usage.amount dimension ≤ budget.limit dimension) ∨
        (decision.budgetEscalationReason = reason ∧ reason ≠ none ∧
          ∃ dimension, budget.limit dimension < usage.amount dimension)) := by
  simp only [evaluatePerceptionBudget] at h
  rcases ite_eq_iff.mp h with ⟨hnone, h⟩ | ⟨hnone, h⟩
  · cases h
    refine ⟨rfl, rfl, .inl ⟨rfl, fun dimension => ?_⟩⟩
    by_contra hover
    have hmem := mem_exceededDimensions.mpr (Nat.lt_of_not_le hover)
    rw [isEmpty_iff.mp hnone] at hmem
    cases hmem
  · cases reason with
    | none => cases h
    | some reason =>
      cases h
      obtain ⟨dimension, hmem⟩ :=
        exists_mem_of_ne_nil _ fun hnil => hnone (isEmpty_iff.mpr hnil)
      exact ⟨rfl, rfl, .inr ⟨rfl, Option.some_ne_none _, dimension,
        mem_exceededDimensions.mp hmem⟩⟩

/-! ## Candidates -/

/-- A way to look at the page. -/
inductive PerceptionActionKind
  | semanticSnapshot
  | elementInspect
  | regionCapture
  | viewportCapture
  | responsiveSweep
  | consoleRead
  | networkRead
  | accessibilityScan
  | performanceSample
  | interactionReplay
  | chromiumEscalation
deriving DecidableEq

/-- A look at the page that could be taken. -/
structure PerceptionCandidate (F : Type) where
  id : String
  kind : PerceptionActionKind
  (uncertaintyReduction riskRelevance : F)
  (estimatedCpuMs estimatedTokens estimatedCaptureBytes : UInt64)

structure BudgetedPerceptionCandidate (F : Type) where
  action : PerceptionCandidate F
  /-- The usage forecast should this observation be made. -/
  estimatedUsage : PerceptionBudgetUsage

/-- The usage a candidate is charged: a browser escalation is one spawn, whatever is said. -/
def BudgetedPerceptionCandidate.effectiveUsage {F : Type}
    (candidate : BudgetedPerceptionCandidate F) : PerceptionBudgetUsage :=
  if candidate.action.kind = .chromiumEscalation then
    { candidate.estimatedUsage with chromiumSpawns := 1 }
  else candidate.estimatedUsage

section
variable {F : Type} [Score32 F]

def PerceptionCandidate.informationGainScore (candidate : PerceptionCandidate F) : F :=
  let unit (x : F) := clamp x (ofNat 0) (ofNat 1)
  let half : F := div (ofNat 1) (ofNat 2)
  let utility := mul (unit candidate.uncertaintyReduction)
    (add half (unit candidate.riskRelevance))
  let cpuCost := div (ofNat candidate.estimatedCpuMs.toNat) (ofNat 250)
  let tokenCost := div (ofNat candidate.estimatedTokens.toNat) (ofNat 1000)
  let storageCost := div (ofNat candidate.estimatedCaptureBytes.toNat)
    (mul (ofNat 1024) (ofNat 1024))
  div utility
    (add (add (add (ofNat 1) cpuCost) tokenCost) storageCost)

def normalizedRatio (value limit : Nat) : F :=
  if value = 0 then ofNat 0
  else if limit = 0 then ofNat value
  else div (ofNat value) (ofNat limit)

def BudgetedPerceptionCandidate.budgetedInformationGainScore
    (candidate : BudgetedPerceptionCandidate F) (budget : PerceptionBudgetContract) : F :=
  let usage := candidate.effectiveUsage
  let spawnCost : F := if usage.chromiumSpawns = 0 then ofNat 0
    else mul (ofNat 4) (ofNat usage.chromiumSpawns.toNat)
  let normalizedCost := add (add (add (add (ofNat 1)
      (normalizedRatio usage.latencyMs.toNat budget.latencyMs.toNat))
      (normalizedRatio usage.textTokens.toNat budget.textTokens.toNat))
      (normalizedRatio usage.imageRegions.toNat budget.imageRegions.toNat))
    spawnCost
  div candidate.action.informationGainScore (max normalizedCost (ofNat 1))

/-- The more informing for its cost first; among equals the smaller id. -/
def BudgetedPerceptionCandidate.precedes (budget : PerceptionBudgetContract)
    (left right : BudgetedPerceptionCandidate F) : Bool :=
  let leftScore := left.budgetedInformationGainScore budget
  let rightScore := right.budgetedInformationGainScore budget
  if totalLe leftScore rightScore then
    if totalLe rightScore leftScore then decide (left.action.id ≤ right.action.id) else false
  else true

end

/-! ## Signals -/

/-- What allows to spend more. -/
structure PerceptionCycleSignals where
  (criticalIssue explicitDeepMode insufficientEvidence browserSpecificSuspicion : Bool)

def PerceptionCycleSignals.generalEscalationReason (signals : PerceptionCycleSignals) :
    Option BudgetEscalationReason :=
  if signals.criticalIssue then some .criticalIssue
  else if signals.explicitDeepMode then some .explicitDeepMode
  else if signals.insufficientEvidence then some .insufficientEvidence
  else if signals.browserSpecificSuspicion then some .browserSpecificSuspicion
  else none

def perceptionEscalationReason (kind : PerceptionActionKind) (signals : PerceptionCycleSignals) :
    Option BudgetEscalationReason :=
  if kind = .chromiumEscalation then
    if signals.browserSpecificSuspicion then some .browserSpecificSuspicion else none
  else signals.generalEscalationReason

/-! ## The planner -/

/-- Why a candidate is not planned. -/
inductive PerceptionPlanRejectionReason
  | budgetExceededWithoutAuthorizedEscalation
  | chromiumRequiresBrowserSpecificSuspicion

structure PerceptionPlanRejection where
  candidateId : String
  reason : PerceptionPlanRejectionReason

/-- What is looked at, and what is not. -/
structure BudgetedPerceptionPlan (F : Type) where
  actions : List (BudgetedPerceptionCandidate F)
  rejected : List PerceptionPlanRejection
  budgetDecision : PerceptionBudgetDecision

def addUsage (spent next : PerceptionBudgetUsage) : PerceptionBudgetUsage where
  latencyMs := satAdd64 spent.latencyMs next.latencyMs
  textTokens := satAdd64 spent.textTokens next.textTokens
  imageRegions := satAdd64 spent.imageRegions next.imageRegions
  chromiumSpawns := satAdd32 spent.chromiumSpawns next.chromiumSpawns

def remainingBudget (budget : PerceptionBudgetContract) (spent : PerceptionBudgetUsage) :
    PerceptionBudgetContract where
  latencyMs := satSub64 budget.latencyMs spent.latencyMs
  textTokens := satSub64 budget.textTokens spent.textTokens
  imageRegions := satSub64 budget.imageRegions spent.imageRegions
  chromiumSpawns := satSub32 budget.chromiumSpawns spent.chromiumSpawns

def zeroUsage : PerceptionBudgetUsage := ⟨0, 0, 0, 0⟩

/-- What the evaluation of no usage, which the code expects to succeed, decides. -/
def zeroUsageDecision (budget : PerceptionBudgetContract) : PerceptionBudgetDecision :=
  ⟨.withinBudget, budget, zeroUsage, [], none⟩

theorem evaluatePerceptionBudget_zeroUsage (budget : PerceptionBudgetContract)
    (reason : Option BudgetEscalationReason) :
    evaluatePerceptionBudget budget zeroUsage reason = .ok (zeroUsageDecision budget) := by
  have hnone : exceededDimensions budget zeroUsage = [] := by
    refine eq_nil_iff_forall_not_mem.mpr fun dimension hmem => ?_
    have hover := mem_exceededDimensions.mp hmem
    cases dimension <;> exact absurd hover (Nat.not_lt_zero _)
  simp only [evaluatePerceptionBudget, hnone]
  rfl

section
variable {F : Type}

/-- The loop over the candidates in order. -/
def planFrom (budget : PerceptionBudgetContract) (spent : PerceptionBudgetUsage)
    (signals : PerceptionCycleSignals) :
    List PerceptionPlanRejection → List (BudgetedPerceptionCandidate F) → BudgetedPerceptionPlan F
  | rejected, [] => ⟨[], rejected, zeroUsageDecision budget⟩
  | rejected, candidate :: rest =>
    if candidate.action.kind = .chromiumEscalation ∧ signals.browserSpecificSuspicion = false then
      planFrom budget spent signals
        (rejected ++ [⟨candidate.action.id, .chromiumRequiresBrowserSpecificSuspicion⟩]) rest
    else
      match evaluatePerceptionBudget budget (addUsage spent candidate.effectiveUsage)
          (perceptionEscalationReason candidate.action.kind signals) with
      | .ok budgetDecision => ⟨[candidate], rejected, budgetDecision⟩
      | .error _ => planFrom budget spent signals
          (rejected ++ [⟨candidate.action.id, .budgetExceededWithoutAuthorizedEscalation⟩]) rest

variable [Score32 F]

def planBudgetedPerceptionCycleWithUsage (candidates : List (BudgetedPerceptionCandidate F))
    (budget : PerceptionBudgetContract) (spent : PerceptionBudgetUsage)
    (signals : PerceptionCycleSignals) : BudgetedPerceptionPlan F :=
  planFrom budget spent signals [] <| candidates.insertionSort fun left right =>
    BudgetedPerceptionCandidate.precedes (remainingBudget budget spent) left right = true

end

/-! ## Accounting -/

@[simp] theorem amount_addUsage (spent next : PerceptionBudgetUsage)
    (dimension : BudgetDimension) : (addUsage spent next).amount dimension =
      min (spent.amount dimension + next.amount dimension) dimension.greatest := by
  cases dimension
  · exact toNat_satAdd64 _ _
  · exact toNat_satAdd64 _ _
  · exact toNat_satAdd64 _ _
  · exact toNat_satAdd32 _ _

@[simp] theorem limit_remainingBudget (budget : PerceptionBudgetContract)
    (spent : PerceptionBudgetUsage) (dimension : BudgetDimension) :
    (remainingBudget budget spent).limit dimension =
      budget.limit dimension - spent.amount dimension := by
  cases dimension
  · exact toNat_satSub64 _ _
  · exact toNat_satSub64 _ _
  · exact toNat_satSub64 _ _
  · exact toNat_satSub32 _ _

theorem amount_le_greatest (usage : PerceptionBudgetUsage) (dimension : BudgetDimension) :
    usage.amount dimension ≤ dimension.greatest := by
  cases dimension
  · exact Nat.le_of_lt_succ usage.latencyMs.toNat_lt
  · exact Nat.le_of_lt_succ usage.textTokens.toNat_lt
  · exact Nat.le_of_lt_succ usage.imageRegions.toNat_lt
  · exact Nat.le_of_lt_succ usage.chromiumSpawns.toNat_lt

theorem limit_le_greatest (budget : PerceptionBudgetContract) (dimension : BudgetDimension) :
    budget.limit dimension ≤ dimension.greatest := by
  cases dimension
  · exact Nat.le_of_lt_succ budget.latencyMs.toNat_lt
  · exact Nat.le_of_lt_succ budget.textTokens.toNat_lt
  · exact Nat.le_of_lt_succ budget.imageRegions.toNat_lt
  · exact Nat.le_of_lt_succ budget.chromiumSpawns.toNat_lt

section
variable {F : Type}

def scheduledCost (actions : List (BudgetedPerceptionCandidate F)) (dimension : BudgetDimension) :
    Nat :=
  (actions.map fun action => action.effectiveUsage.amount dimension).sum

variable {budget : PerceptionBudgetContract} {signals : PerceptionCycleSignals}
  {spent : PerceptionBudgetUsage}

/-- A plan has no action, or one, which the budget took on top of what was spent. -/
theorem planFrom_spec (rejected : List PerceptionPlanRejection)
    (candidates : List (BudgetedPerceptionCandidate F)) :
    (planFrom budget spent signals rejected candidates).actions = [] ∨
    ∃ action ∈ candidates, (planFrom budget spent signals rejected candidates).actions = [action] ∧
      (action.action.kind = .chromiumEscalation → signals.browserSpecificSuspicion = true) ∧
      evaluatePerceptionBudget budget (addUsage spent action.effectiveUsage)
        (perceptionEscalationReason action.action.kind signals) =
          .ok (planFrom budget spent signals rejected candidates).budgetDecision := by
  induction candidates generalizing rejected with
  | nil => exact .inl rfl
  | cons candidate rest ih =>
    have hrest : ∀ rejected',
        (planFrom budget spent signals rejected' rest).actions = [] ∨
        ∃ action ∈ candidate :: rest,
          (planFrom budget spent signals rejected' rest).actions = [action] ∧
          (action.action.kind = .chromiumEscalation → signals.browserSpecificSuspicion = true) ∧
          evaluatePerceptionBudget budget (addUsage spent action.effectiveUsage)
            (perceptionEscalationReason action.action.kind signals) =
              .ok (planFrom budget spent signals rejected' rest).budgetDecision := by
      intro rejected'
      rcases ih rejected' with hnone | ⟨action, hmem, hspec⟩
      · exact .inl hnone
      · exact .inr ⟨action, mem_cons_of_mem _ hmem, hspec⟩
    rw [planFrom]
    by_cases hchromium : candidate.action.kind = .chromiumEscalation ∧
        signals.browserSpecificSuspicion = false
    · rw [if_pos hchromium]
      exact hrest _
    · rw [if_neg hchromium]
      cases hdecision : evaluatePerceptionBudget budget (addUsage spent candidate.effectiveUsage)
          (perceptionEscalationReason candidate.action.kind signals) with
      | ok decision =>
        refine .inr ⟨candidate, mem_cons_self, rfl, fun hkind => ?_, hdecision⟩
        exact Bool.not_eq_false _ |>.mp fun hfalse => hchromium ⟨hkind, hfalse⟩
      | error violation => exact hrest _

/-- What holds of every plan's accounts.  One action at most is scheduled, and where one is,
the usage is what was spent and what it costs.  Unless a reason is recorded, it is within what
remains (or the limit is the greatest number there is, which a saturating sum cannot pass);
a reason recorded is the one that the signals give for that kind of action.  A browser is
started under suspicion only, once, and beyond its budget for no other reason. -/
structure BudgetAccounted (candidates : List (BudgetedPerceptionCandidate F))
    (budget : PerceptionBudgetContract) (spent : PerceptionBudgetUsage)
    (signals : PerceptionCycleSignals) (plan : BudgetedPerceptionPlan F) : Prop where
  oneAction : plan.actions.length ≤ 1 ∧ ∀ action ∈ plan.actions, action ∈ candidates
  usage : plan.actions ≠ [] → ∀ dimension,
    spent.amount dimension ≤ plan.budgetDecision.usage.amount dimension ∧
      plan.budgetDecision.usage.amount dimension =
        min (spent.amount dimension + scheduledCost plan.actions dimension) dimension.greatest
  affordable : plan.budgetDecision.budgetEscalationReason = none → ∀ dimension,
    scheduledCost plan.actions dimension ≤ (remainingBudget budget spent).limit dimension ∨
      budget.limit dimension = dimension.greatest
  authorized : ∀ reason, plan.budgetDecision.budgetEscalationReason = some reason →
    ∃ action, plan.actions = [action] ∧
      perceptionEscalationReason action.action.kind signals = some reason
  browser : ∀ action ∈ plan.actions, action.action.kind = .chromiumEscalation →
    signals.browserSpecificSuspicion = true ∧ action.effectiveUsage.chromiumSpawns = 1 ∧
      (budget.limit .chromiumSpawns < plan.budgetDecision.usage.amount .chromiumSpawns →
        plan.budgetDecision.budgetEscalationReason = some .browserSpecificSuspicion)
  overrun : ∀ dimension, plan.actions ≠ [] →
    budget.limit dimension < plan.budgetDecision.usage.amount dimension →
      plan.budgetDecision.budgetEscalationReason ≠ none

variable {candidates : List (BudgetedPerceptionCandidate F)}

theorem budgetDecision_of_no_actions {rejected : List PerceptionPlanRejection}
    (h : (planFrom budget spent signals rejected candidates).actions = []) :
    (planFrom budget spent signals rejected candidates).budgetDecision =
      zeroUsageDecision budget := by
  induction candidates generalizing rejected with
  | nil => rfl
  | cons candidate rest ih =>
    rw [planFrom] at h ⊢
    split_ifs at h ⊢ with hchromium
    · exact ih h
    · split at h
      · cases h
      · exact ih h

theorem scheduledCost_singleton (action : BudgetedPerceptionCandidate F)
    (dimension : BudgetDimension) :
    scheduledCost [action] dimension = action.effectiveUsage.amount dimension := by
  simp [scheduledCost]

theorem effectiveUsage_of_chromium {action : BudgetedPerceptionCandidate F}
    (h : action.action.kind = .chromiumEscalation) :
    action.effectiveUsage.chromiumSpawns = 1 := by
  rw [BudgetedPerceptionCandidate.effectiveUsage, if_pos h]

theorem accounted_of_decision {plan : BudgetedPerceptionPlan F}
    {action : BudgetedPerceptionCandidate F} (hmem : action ∈ candidates)
    (hone : plan.actions = [action])
    (hsuspicion : action.action.kind = .chromiumEscalation →
      signals.browserSpecificSuspicion = true)
    (hdecision : evaluatePerceptionBudget budget (addUsage spent action.effectiveUsage)
      (perceptionEscalationReason action.action.kind signals) = .ok plan.budgetDecision) :
    BudgetAccounted candidates budget spent signals plan := by
  obtain ⟨husage, -, hcases⟩ := evaluatePerceptionBudget_eq_ok hdecision
  have hamount : ∀ dimension, plan.budgetDecision.usage.amount dimension =
      min (spent.amount dimension + scheduledCost plan.actions dimension) dimension.greatest := by
    intro dimension
    rw [husage, amount_addUsage, hone, scheduledCost_singleton]
  have hwithin : plan.budgetDecision.budgetEscalationReason = none → ∀ dimension,
      plan.budgetDecision.usage.amount dimension ≤ budget.limit dimension := by
    intro hreason dimension
    rcases hcases with ⟨-, hwithin⟩ | ⟨hsame, hsome, -⟩
    · rw [husage]
      exact hwithin dimension
    · exact absurd (hsame.symm.trans hreason) hsome
  refine ⟨by rw [hone]; simpa using hmem, fun _ dimension => ⟨?_, hamount dimension⟩,
    fun hreason dimension => ?_, fun reason hreason => ⟨action, hone, ?_⟩,
    fun other hother hkind => ?_, fun dimension _ hover hreason => ?_⟩
  · have hspent := amount_le_greatest spent dimension
    rw [hamount]
    omega
  · have hle := hwithin hreason dimension
    have hlimit := limit_le_greatest budget dimension
    rw [hamount] at hle
    rw [limit_remainingBudget]
    omega
  · rcases hcases with ⟨hnone, -⟩ | ⟨hsame, -, -⟩
    · rw [hnone] at hreason
      cases hreason
    · exact hsame.symm.trans hreason
  · rw [hone, mem_singleton] at hother
    subst hother
    refine ⟨hsuspicion hkind, effectiveUsage_of_chromium hkind, fun hover => ?_⟩
    rcases hcases with ⟨hnone, -⟩ | ⟨hsame, -, -⟩
    · exact absurd hover (Nat.not_lt.mpr (hwithin hnone .chromiumSpawns))
    · rw [hsame, perceptionEscalationReason, if_pos hkind, if_pos (hsuspicion hkind)]
  · exact absurd hover (Nat.not_lt.mpr (hwithin hreason dimension))

variable [Score32 F]

/-- **Accounts of the budget**, for every list of candidates, budget, prior usage and
signals. -/
theorem planBudgetedPerceptionCycleWithUsage_accounted
    (candidates : List (BudgetedPerceptionCandidate F)) (budget : PerceptionBudgetContract)
    (spent : PerceptionBudgetUsage) (signals : PerceptionCycleSignals) :
    BudgetAccounted candidates budget spent signals
      (planBudgetedPerceptionCycleWithUsage candidates budget spent signals) := by
  rw [planBudgetedPerceptionCycleWithUsage]
  generalize hordered : candidates.insertionSort (fun left right =>
    BudgetedPerceptionCandidate.precedes (remainingBudget budget spent) left right = true) =
      ordered
  have hmem : ∀ action ∈ ordered, action ∈ candidates := by
    rw [← hordered]
    exact fun action => (perm_insertionSort _ _).mem_iff.mp
  rcases planFrom_spec [] ordered with hnone | ⟨action, haction, hone, hsuspicion, hdecision⟩
  · have hzero := budgetDecision_of_no_actions hnone
    refine ⟨by rw [hnone]; simp, fun hsome => absurd hnone hsome, fun _ dimension => .inl ?_,
      fun reason hreason => ?_, fun action haction => ?_, fun _ hsome => absurd hnone hsome⟩
    · rw [hnone]
      exact Nat.zero_le _
    · rw [hzero] at hreason
      cases hreason
    · rw [hnone] at haction
      cases haction
  · exact accounted_of_decision (hmem action haction) hone hsuspicion hdecision

/-- The accounts as one might expect them: no dimension below what was spent, nothing
scheduled beyond what remains, no browser beyond its budget without suspicion. -/
def StrictlyAccounted (budget : PerceptionBudgetContract) (spent : PerceptionBudgetUsage)
    (signals : PerceptionCycleSignals) (plan : BudgetedPerceptionPlan F) : Prop :=
  ∀ dimension, spent.amount dimension ≤ plan.budgetDecision.usage.amount dimension ∧
    scheduledCost plan.actions dimension ≤ (remainingBudget budget spent).limit dimension ∧
    (budget.limit .chromiumSpawns < plan.budgetDecision.usage.amount .chromiumSpawns →
      signals.browserSpecificSuspicion = true)

end

/-- Evidence that does not suffice authorizes an overrun: 1600 ms are scheduled of 1500. -/
theorem region_overruns_authorized :
    ¬ ∀ (candidates : List (BudgetedPerceptionCandidate ℚ)) (budget : PerceptionBudgetContract)
      (spent : PerceptionBudgetUsage) (signals : PerceptionCycleSignals),
      StrictlyAccounted budget spent signals
        (planBudgetedPerceptionCycleWithUsage candidates budget spent signals) := by
  intro h
  have hregion := (h [⟨⟨"region", .regionCapture, 1, 1, 10, 200, 16384⟩, ⟨1600, 200, 1, 0⟩⟩]
    ⟨1500, 800, 2, 0⟩ zeroUsage ⟨false, false, true, false⟩ .latencyMs).2.1
  revert hregion
  decide

end Localview
