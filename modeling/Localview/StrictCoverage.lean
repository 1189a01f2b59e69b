import Mathlib.Data.String.Basic
import Localview.OrderedSet
import Localview.ResourceGovernor

/-! # Strict coverage

`strict_coverage_report` of `verification/src/lib.rs`: each target gets the state of its
last observation, and is counted as verified if that state is and no evidence class is
missing.  Where a class is missing the state goes into the report as it was observed, so a
target may stand there as verified that is not counted.

`HonestCoverage` is what a report should be; `strictCoverageReport_honest_iff` says for
which observations it is.
-/
namespace Localview
open List Bool

/-- What is known of a coverage target. -/
inductive VerificationState
  | discovered
  | observed
  | verified
  | stale
  | unknown
  deriving DecidableEq

/-- The states, each once. -/
def VerificationState.all : List VerificationState :=
  [.discovered, .observed, .verified, .stale, .unknown]

/-- Something to be verified. -/
structure CoverageTarget where
  id : String
  riskWeight : UInt16
  requiredEvidenceClasses : OrderedSet String

/-- What is known of a target. -/
structure StrictCoverageObservation where
  targetId : String
  state : VerificationState
  evidenceClasses : OrderedSet String
  evidenceIds : List String

/-- Where a target stands. -/
structure CoverageTargetStatus where
  id : String
  state : VerificationState
  (evidenceIds missingEvidenceClasses : List String)
  deriving DecidableEq

/-- How much is verified. -/
structure StrictCoverageReport (F : Type) where
  denominatorKnown : Bool
  (verifiedRatio riskWeightedVerifiedRatio : Option F)
  targets : List CoverageTargetStatus

/-- What the loop over the targets has counted and reported. -/
structure CoverageTally where
  (verified verifiedWeight : Nat)
  statuses : List CoverageTargetStatus

/-- The observations by target, the later of two of one target. -/
def byTarget (observations : List StrictCoverageObservation) :
    OrderedMap String StrictCoverageObservation :=
  observations.foldl (fun m observation => m.insert observation.targetId observation) .empty

/-- What a target counts for. -/
def CoverageTarget.weight (target : CoverageTarget) : Nat := max target.riskWeight.toNat 1

/-- The loop's body. -/
def CoverageTally.cover (observations : OrderedMap String StrictCoverageObservation)
    (tally : CoverageTally) (target : CoverageTarget) : CoverageTally :=
  match observations.get target.id with
  | none =>
      { tally with
        statuses := tally.statuses ++
          [{ id := target.id
             state := .unknown
             evidenceIds := []
             missingEvidenceClasses := target.requiredEvidenceClasses.toList }] }
  | some observation =>
      let missing := target.requiredEvidenceClasses.difference observation.evidenceClasses
      let status (state : VerificationState) : CoverageTargetStatus :=
        { id := target.id, state, evidenceIds := observation.evidenceIds
          missingEvidenceClasses := missing }
      if observation.state = .stale then
        { tally with statuses := tally.statuses ++ [status .stale] }
      else if observation.state = .verified ∧ missing.isEmpty then
        { verified := tally.verified + 1, verifiedWeight := tally.verifiedWeight + target.weight
          statuses := tally.statuses ++ [status .verified] }
      else { tally with statuses := tally.statuses ++ [status observation.state] }

def strictCoverageReport (F : Type) [Binary32 F] (targets : List CoverageTarget)
    (observations : List StrictCoverageObservation) : StrictCoverageReport F :=
  if targets.isEmpty then
    { denominatorKnown := false, verifiedRatio := none, riskWeightedVerifiedRatio := none
      targets := [] }
  else
    let totalWeight := (targets.map CoverageTarget.weight).sum
    let tally := targets.foldl (CoverageTally.cover (byTarget observations)) ⟨0, 0, []⟩
    { denominatorKnown := true
      verifiedRatio := some (Binary32.div (Binary32.ofNat tally.verified)
        (Binary32.ofNat targets.length))
      riskWeightedVerifiedRatio := some (Binary32.div (Binary32.ofNat tally.verifiedWeight)
        (Binary32.ofNat totalWeight))
      targets := tally.statuses }

/-! ## What a report should be -/

def lastObservation (observations : List StrictCoverageObservation) (id : String) :
    Option StrictCoverageObservation :=
  observations.reverse.find? fun observation => observation.targetId = id

def EvidencePresent (target : CoverageTarget) (observation : StrictCoverageObservation) : Prop :=
  ∀ evidenceClass ∈ target.requiredEvidenceClasses.toList,
    evidenceClass ∈ observation.evidenceClasses.toList

/-- How many targets a report has in a state. -/
def stateCount {F : Type} (report : StrictCoverageReport F) (state : VerificationState) : Nat :=
  report.targets.countP fun status => status.state = state

/-- A verified target has its evidence, each target is counted under one state, and the
ratio is of the targets counted as verified. -/
structure HonestCoverage {F : Type} [Binary32 F] (targets : List CoverageTarget)
    (observations : List StrictCoverageObservation) (report : StrictCoverageReport F) : Prop where
  verified : ∀ target status, (target, status) ∈ targets.zip report.targets →
    status.state = .verified → ∃ observation,
      lastObservation observations target.id = some observation ∧ EvidencePresent target observation
  named : report.targets.map CoverageTargetStatus.id = targets.map CoverageTarget.id
  partition : (VerificationState.all.map (stateCount report)).sum = targets.length
  ratio : report.verifiedRatio =
    if targets = [] then none
    else some (Binary32.div (Binary32.ofNat (stateCount report .verified))
      (Binary32.ofNat targets.length))

section
variable {F : Type} [Binary32 F] {targets : List CoverageTarget} {target : CoverageTarget}
  {observations : List StrictCoverageObservation} {tally : CoverageTally}

/-! ## One status a target -/

theorem get_byTarget {id : String} :
    (byTarget observations).get id = lastObservation observations id := by
  induction observations using List.reverseRecOn with
  | nil => rfl
  | append_singleton earlier observation ih =>
    unfold byTarget lastObservation at ih ⊢
    rw [foldl_append, foldl_cons, foldl_nil, OrderedMap.get_insert, ih,
      reverse_append, reverse_singleton, singleton_append]
    by_cases hid : id = observation.targetId
    · rw [if_pos hid, find?_cons_of_pos (by simp [hid])]
    · rw [if_neg hid, find?_cons_of_neg (by simpa using Ne.symm hid)]

def statusOf (observations : List StrictCoverageObservation) (target : CoverageTarget) :
    CoverageTargetStatus :=
  match lastObservation observations target.id with
  | none => ⟨target.id, .unknown, [], target.requiredEvidenceClasses.toList⟩
  | some observation => ⟨target.id, observation.state, observation.evidenceIds,
      target.requiredEvidenceClasses.difference observation.evidenceClasses⟩

def Counted (observations : List StrictCoverageObservation) (target : CoverageTarget) : Bool :=
  match lastObservation observations target.id with
  | none => false
  | some observation => decide (observation.state = .verified ∧
      (target.requiredEvidenceClasses.difference observation.evidenceClasses).isEmpty)

/-- The body adds a status, and counts the target where it does. -/
theorem cover_eq : tally.cover (byTarget observations) target =
    { verified := tally.verified + (Counted observations target).toNat
      verifiedWeight := tally.verifiedWeight +
        if Counted observations target then target.weight else 0
      statuses := tally.statuses ++ [statusOf observations target] } := by
  unfold CoverageTally.cover Counted statusOf
  rw [get_byTarget]
  cases lastObservation observations target.id with
  | none => simp
  | some observation =>
    by_cases hstale : observation.state = .stale
    · simp [hstale]
    · by_cases hverified : observation.state = .verified ∧
          (target.requiredEvidenceClasses.difference observation.evidenceClasses).isEmpty
      · simp [hverified]
      · simp only [if_neg hstale, if_neg hverified, decide_eq_false hverified, toNat_false,
          Nat.add_zero, false_eq_true, if_false]

/-- The loop counts the counted targets, and lists a status for each. -/
theorem foldl_cover :
    (targets.foldl (CoverageTally.cover (byTarget observations)) tally).verified =
        tally.verified + targets.countP (Counted observations) ∧
      (targets.foldl (CoverageTally.cover (byTarget observations)) tally).statuses =
        tally.statuses ++ targets.map (statusOf observations) := by
  induction targets generalizing tally with
  | nil => simp
  | cons target targets ih =>
    obtain ⟨hverified, hstatuses⟩ := @ih (tally.cover (byTarget observations) target)
    rw [foldl_cons, hverified, hstatuses, cover_eq, countP_cons, map_cons,
      append_assoc, singleton_append]
    cases Counted observations target with
    | true => exact ⟨by simp only [toNat_true, if_true]; omega, rfl⟩
    | false => exact ⟨by simp, rfl⟩

theorem strictCoverageReport_targets :
    (strictCoverageReport F targets observations).targets = targets.map (statusOf observations) := by
  unfold strictCoverageReport
  cases targets with
  | nil => rfl
  | cons target targets =>
    simp only [isEmpty_cons, false_eq_true, if_false, foldl_cover, nil_append]

/-- A target stands with its own status. -/
theorem mem_zip_statusOf {status : CoverageTargetStatus} :
    (target, status) ∈ targets.zip (targets.map (statusOf observations)) ↔
      target ∈ targets ∧ status = statusOf observations target := by
  induction targets with
  | nil => simp
  | cons first targets ih =>
    rw [map_cons, zip_cons_cons, mem_cons, ih, mem_cons, Prod.mk.injEq]
    constructor
    · rintro (⟨rfl, rfl⟩ | ⟨hmem, rfl⟩)
      · exact ⟨.inl rfl, rfl⟩
      · exact ⟨.inr hmem, rfl⟩
    · rintro ⟨rfl | hmem, rfl⟩
      · exact .inl ⟨rfl, rfl⟩
      · exact .inr ⟨hmem, rfl⟩

theorem statusOf_verified : (statusOf observations target).state = .verified ↔
    ∃ observation, lastObservation observations target.id = some observation ∧
      observation.state = .verified := by
  unfold statusOf
  cases lastObservation observations target.id with
  | none => simp
  | some observation => simp

theorem counted_iff : Counted observations target = true ↔
    ∃ observation, lastObservation observations target.id = some observation ∧
      observation.state = .verified ∧ EvidencePresent target observation := by
  unfold Counted EvidencePresent
  cases lastObservation observations target.id with
  | none => simp
  | some observation =>
    simp only [decide_eq_true_eq, List.isEmpty_iff, OrderedSet.difference_eq_nil, Option.some.injEq,
      exists_eq_left']

/-- Each member of a list has one state. -/
theorem sum_stateCounts (statuses : List CoverageTargetStatus) :
    (VerificationState.all.map fun state =>
      statuses.countP fun status => status.state = state).sum = statuses.length := by
  induction statuses with
  | nil => rfl
  | cons status statuses ih =>
    simp only [VerificationState.all, map_cons, map_nil, sum_cons, sum_nil,
      countP_cons, length_cons] at ih ⊢
    cases status.state <;> simp <;> omega

/-- **Strict coverage is honest about evidence that is there.**  A report is honest if and
only if every target whose last observation is verified has all its evidence classes in
it. -/
theorem strictCoverageReport_honest_iff (F : Type) [Binary32 F] (targets : List CoverageTarget)
    (observations : List StrictCoverageObservation) :
    HonestCoverage targets observations (strictCoverageReport F targets observations) ↔
      ∀ target ∈ targets, ∀ observation, lastObservation observations target.id = some observation →
        observation.state = .verified → EvidencePresent target observation := by
  constructor
  · intro hhonest target hmem observation hlast hverified
    have hstatus : (statusOf observations target).state = .verified :=
      statusOf_verified.mpr ⟨observation, hlast, hverified⟩
    obtain ⟨observation', hlast', hpresent⟩ := hhonest.verified target (statusOf observations target)
      (by rw [strictCoverageReport_targets]; exact mem_zip_statusOf.mpr ⟨hmem, rfl⟩) hstatus
    obtain rfl := Option.some.inj (hlast.symm.trans hlast')
    exact hpresent
  · intro hpresent
    -- under the condition the targets that are verified are those that are counted
    have hcounted : ∀ target ∈ targets, Counted observations target = true ↔
        (statusOf observations target).state = .verified := by
      intro target hmem
      rw [counted_iff, statusOf_verified]
      constructor
      · rintro ⟨observation, hlast, hverified, -⟩
        exact ⟨observation, hlast, hverified⟩
      · rintro ⟨observation, hlast, hverified⟩
        exact ⟨observation, hlast, hverified, hpresent target hmem observation hlast hverified⟩
    refine ⟨?_, ?_, ?_, ?_⟩
    · intro target status hmem hverified
      rw [strictCoverageReport_targets, mem_zip_statusOf] at hmem
      obtain ⟨hmem, rfl⟩ := hmem
      obtain ⟨observation, hlast, hstate⟩ := statusOf_verified.mp hverified
      exact ⟨observation, hlast, hpresent target hmem observation hlast hstate⟩
    · rw [strictCoverageReport_targets, map_map]
      refine map_congr_left fun target _ => ?_
      unfold statusOf
      simp only [Function.comp_apply]
      cases lastObservation observations target.id <;> rfl
    · have hsum := sum_stateCounts (strictCoverageReport F targets observations).targets
      rw [strictCoverageReport_targets, length_map] at hsum
      unfold stateCount
      rw [strictCoverageReport_targets]
      exact hsum
    · have hcount : stateCount (strictCoverageReport F targets observations) .verified =
          targets.countP (Counted observations) := by
        rw [stateCount, strictCoverageReport_targets, countP_map]
        refine countP_congr fun target hmem => ?_
        rw [hcounted target hmem]
        simp
      rw [hcount]
      have hverified := (@foldl_cover targets observations ⟨0, 0, []⟩).1
      unfold strictCoverageReport
      cases targets with
      | nil => rfl
      | cons target targets =>
        simp only [isEmpty_cons, Bool.false_eq_true, if_false, cons_ne_nil, hverified,
          Nat.zero_add]

end

/-- A checkout that needs semantic and layout evidence. -/
def checkoutTarget : CoverageTarget :=
  { id := "checkout", riskWeight := 10, requiredEvidenceClasses := .ofList ["semantic", "layout"] }

/-- An observation that says verified and has semantic evidence only. -/
def partialObservation : StrictCoverageObservation :=
  { targetId := "checkout", state := .verified, evidenceClasses := .ofList ["semantic"],
    evidenceIds := ["ev"] }

/-- The target is reported as verified, its layout evidence as missing, and none is counted. -/
theorem strictCoverageReport_partial :
    (strictCoverageReport ℚ [checkoutTarget] [partialObservation]).targets =
        [{ id := "checkout", state := .verified, evidenceIds := ["ev"],
           missingEvidenceClasses := ["layout"] }] ∧
      (strictCoverageReport ℚ [checkoutTarget] [partialObservation]).verifiedRatio = some 0 ∧
        ¬HonestCoverage [checkoutTarget] [partialObservation]
          (strictCoverageReport ℚ [checkoutTarget] [partialObservation]) := by
  have htargets : (strictCoverageReport ℚ [checkoutTarget] [partialObservation]).targets =
      [{ id := "checkout", state := .verified, evidenceIds := ["ev"],
         missingEvidenceClasses := ["layout"] }] := by decide +kernel
  refine ⟨htargets, by decide +kernel, fun hhonest => ?_⟩
  obtain ⟨observation, hlast, hpresent⟩ := hhonest.verified checkoutTarget
    { id := "checkout", state := .verified, evidenceIds := ["ev"],
      missingEvidenceClasses := ["layout"] } (by rw [htargets]; exact mem_singleton_self _) rfl
  obtain rfl : observation = partialObservation := (Option.some.inj hlast).symm
  have hlayout := hpresent "layout" (by decide +kernel)
  revert hlayout
  decide +kernel

end Localview
