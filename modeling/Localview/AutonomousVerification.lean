import Mathlib.Data.Prod.Lex
import Localview.MutationChallenges
import Localview.PartialRevalidation

/-! # Autonomous verification

A candidate change is bound to the route and the reference it was proposed for, which
predicts its impact; what was observed after the change is then compared with that
prediction, judged on the trusted contracts, and put into a receipt, the receipt into a
bounded verdict on the selected target.

Hashing is a parameter (`VerificationHashes`).
-/
namespace Localview
open EarlyReturn

/-! ## Impact -/

/-- What a change can have an impact on. -/
inductive ImpactKind
  | route
  | region
  | reference
  | contract
  | issueClass
  | visualRegion

/-- The kinds as they are ordered. -/
def ImpactKind.rank : ImpactKind → Nat
  | .route => 0
  | .region => 1
  | .reference => 2
  | .contract => 3
  | .issueClass => 4
  | .visualRegion => 5

/-- Something a change has an impact on. -/
structure ImpactTarget where
  kind : ImpactKind
  id : String

/-- The derived order: the kind, then the id. -/
def ImpactTarget.position (t : ImpactTarget) : Nat ×ₗ String := toLex (t.kind.rank, t.id)

theorem ImpactKind.rank_injective : Function.Injective ImpactKind.rank := by
  intro a b h
  cases a <;> cases b <;> first | rfl | cases h

open ImpactTarget

theorem ImpactTarget.position_injective : Function.Injective position := by
  rintro ⟨kind, id⟩ ⟨kind', id'⟩ h
  have hpair : (kind.rank, id) = (kind'.rank, id') := toLex.injective h
  rw [Prod.mk.injEq] at hpair
  rw [mk.injEq]
  exact ⟨ImpactKind.rank_injective hpair.1, hpair.2⟩

instance : LinearOrder ImpactTarget :=
  LinearOrder.lift' position position_injective

/-- The impact a change is expected to have. -/
structure PredictedImpact where
  targets : OrderedSet ImpactTarget
  evidenceIds : List String

/-- The impact that was seen. -/
structure ActualImpact where
  targets : OrderedSet ImpactTarget
  evidenceIds : List String
  observationScopeComplete : Bool

/-- The two impacts side by side. -/
structure ImpactComparison where
  (predictedAndObserved predictedButNotObserved unexpectedObservedImpact : List ImpactTarget)
  inconclusive : List ImpactTarget
  causalClaim : String

/-- What was seen, set against what was expected. -/
def comparePredictedActual (predicted : PredictedImpact) (actual : ActualImpact) :
    ImpactComparison :=
  let missing := predicted.targets.difference actual.targets
  { predictedAndObserved := predicted.targets.intersection actual.targets
    predictedButNotObserved := if actual.observationScopeComplete then missing else []
    unexpectedObservedImpact := actual.targets.difference predicted.targets
    inconclusive := if actual.observationScopeComplete then [] else missing
    causalClaim := "impact comparison records observed correlation only; " ++
      "it does not establish root cause" }

/-- A plan's impact is what the plan names. -/
def impactTargetsFromAffected {F V : Type} (plan : AffectedStatePlan F V) : PredictedImpact where
  targets := OrderedSet.ofList <|
    plan.impactedRoutes.map (mk .route) ++
    plan.impactedRegions.map (mk .region) ++
    plan.impactedRefs.map (mk .reference) ++
    plan.impactedContracts.map (mk .contract)
  evidenceIds := plan.evidenceProvenance

/-! ## The candidate and its preflight -/

/-- How far a verification is shut off. -/
inductive IsolationLevel
  | semanticOnly
  | nativeWebView
  | chromiumSandbox

/-- Whether outside effects are proven blocked. -/
inductive ExternalSideEffectContainment
  | provenBlocked
  | notProven
deriving DecidableEq

/-- A patch to one file. -/
structure SourceOverlay where
  (file baseHash patch : String)

/-- A change on trial. -/
structure CounterfactualCandidate where
  id : Uuid
  baseRevision : String
  overlays : List SourceOverlay
  evidenceIds : List String

/-- What the shadow workspace proves. -/
structure ShadowCandidateProof where
  candidateId : Uuid
  (baseRevision patchDigest : String)
  isolation : IsolationLevel
  changedFiles : List String
  realWorktreeUnchanged : Bool
  externalSideEffectContainment : ExternalSideEffectContainment

/-- What is left of the shadow workspace. -/
structure ShadowCleanupProof where
  (attempted worktreeRemoved directoryAbsent : Bool)

/-- SHA-256 in hexadecimal, and the hash of a plan's canonical serialization. -/
structure VerificationHashes (F V : Type) where
  sha256Hex : List UInt8 → String
  objectHash : AffectedStatePlan F V → String

/-- A patch as it is hashed. -/
def overlayBytes (overlay : SourceOverlay) : List UInt8 :=
  overlay.file.toUTF8.toList ++ [0] ++ overlay.baseHash.toUTF8.toList ++ [0] ++
    overlay.patch.toUTF8.toList ++ [0xff]

/-- The digest of all overlays. -/
def patchDigest (sha256Hex : List UInt8 → String) (overlays : List SourceOverlay) : String :=
  "sha256:" ++ sha256Hex (overlays.flatMap overlayBytes)

/-- A preflight never says verified. -/
inductive ProductionCandidatePreflightVerdict
  | rejected
  | inconclusive

/-- What a preflight found. -/
structure ProductionCandidatePreflightReceipt (F V : Type) where
  (candidateId baseRevision patchDigest affectedStatePlanHash : Option String)
  affectedStatePlan : Option (AffectedStatePlan F V)
  predictedImpact : Option PredictedImpact
  affectedStateIncompleteReasons : List String
  shadowProof : Option ShadowCandidateProof
  cleanupProof : Option ShadowCleanupProof
  verdict : ProductionCandidatePreflightVerdict
  reasons : List String

/-- Why a receipt is not built. -/
inductive VerificationError
  | bindingMismatch
  | canonicalRouteRequired
  | affectedStateCompilation (e : AffectedStateCompileError)
  | planMissing
  | digestMismatch
  | shadowProofMissing
  | cleanupProofMissing
  | contractCatalog (e : AutonomousContractCompileError)

/-- `sort` and `dedup`. -/
def sortedDedup (values : List String) : List String := (OrderedSet.ofList values).toList

/-- A dimension that leaves no choice. -/
def singleValueDimension {F V : Type} [Score32 F] (id value : String) : StateDimension F V where
  id := id
  values := [⟨value, value, .empty⟩]
  riskWeight := Score32.ofNat 1
  boundaryValues := .empty

/-- `reference.filter(|value| !value.trim().is_empty())` -/
def nonBlank (reference : Option String) : Option String :=
  reference.filter fun value => !trimIsEmpty value

section
variable {F V : Type} [Score32 F]

/-- What a candidate affects: the route it was proposed for, and the reference if any. -/
def affectedStateInput (candidate : CounterfactualCandidate) (digest canonicalRoute : String)
    (reference : Option String) : AffectedStateInput F V where
  baseRevision := candidate.baseRevision
  change :=
    { candidateId := candidate.id.display, patchDigest := digest
      changedProjectFiles := candidate.overlays.map (·.file) }
  impactedRoutes := .ofList [canonicalRoute]
  impactedRegions := .empty
  impactedRefs := .ofList (nonBlank reference).toList
  impactedContracts := .empty
  dimensions := singleValueDimension "route" canonicalRoute ::
    (nonBlank reference).toList.map (singleValueDimension "reference")
  constraints := []
  maxStates := 1
  evidenceIds := candidate.evidenceIds
  dependencyGraphComplete := false
  denominatorKnown := false

/-- A preflight is bound to the candidate, its route and its reference. -/
def bindProductionAffectedState (hashes : VerificationHashes F V)
    (receipt : ProductionCandidatePreflightReceipt F V) (candidate : CounterfactualCandidate)
    (canonicalRoute : String) (reference : Option String) :
    Except VerificationError (ProductionCandidatePreflightReceipt F V) := do
  let digest := patchDigest hashes.sha256Hex candidate.overlays
  rejectIf (receipt.candidateId ≠ some candidate.id.display ∨
      receipt.baseRevision ≠ some candidate.baseRevision ∨
      receipt.patchDigest ≠ some digest) VerificationError.bindingMismatch
  rejectIf (trimIsEmpty canonicalRoute = true) VerificationError.canonicalRouteRequired
  let affected ← (compileAffectedStatePlan
      (affectedStateInput candidate digest canonicalRoute reference)).mapError
    VerificationError.affectedStateCompilation
  return { receipt with
    affectedStatePlanHash := some (hashes.objectHash affected)
    affectedStatePlan := some affected
    predictedImpact := some (impactTargetsFromAffected affected)
    affectedStateIncompleteReasons := affected.incompleteReasons
    reasons :=
      if affected.incomplete then
        sortedDedup (receipt.reasons ++
          ["production affected-state scope remains explicitly incomplete"])
      else receipt.reasons }

end

/-! ## What is observed -/

/-- What the deterministic comparison saw. -/
inductive ProductionDeterministicStatus
  | changeObserved
  | noObservableChange
  | regressionSignal
  | inconclusive
deriving DecidableEq

/-- What was observed in production. -/
structure ProductionObservedVerificationInput where
  deterministicStatus : ProductionDeterministicStatus
  canonicalRoute : String
  reference : Option String
  snapshotVersion : Nat
  referenceChanged : Bool
  visualRegionCount : Nat
  (regressionSignals evidenceIds : List String)
  observedRuntimeMs : Nat

/-- The catalog's revision. -/
def productionContractCatalogRevision : String := "localview-wave9-trusted-verify-contracts-v1"

section
variable {F V : Type} [Binary64 F]

/-- The change has to be seen. -/
def observableChangeContract : UxContract F V where
  id := "trusted-verify.observable-change"
  title := "Trusted Verify must observe the reviewed change"
  category := .safety
  strength := .hard
  scope := .global
  predicate := .metricAtLeast "observable_change" (Binary64.ofNat 1)
  provenance := productionContractCatalogRevision
  inheritedFrom := none

omit [Binary64 F] in
/-- A contract that an issue code must not be reported. -/
def noIssueContract (id code : String) : UxContract F V where
  id := id
  title := id
  category := .safety
  strength := .hard
  scope := .global
  predicate := .noIssueCode code
  provenance := productionContractCatalogRevision
  inheritedFrom := none

/-- The catalog. -/
def productionContractRegistry : ContractRegistry F V :=
  [observableChangeContract,
    noIssueContract "trusted-verify.no-new-console-error" "new_console_error",
    noIssueContract "trusted-verify.no-new-network-failure" "new_network_failure",
    noIssueContract "trusted-verify.target-remains-interactive" "target_became_non_interactive"
  ].foldl ContractRegistry.register .empty

/-- The facts that an observation gives.  The change metric is known unless the
observation is inconclusive. -/
def observedFacts (observed : ProductionObservedVerificationInput) : LiveRuntimeFacts F V :=
  let known := decide (observed.deterministicStatus ≠ .inconclusive)
  let change : F := Binary64.ofNat
    (if observed.deterministicStatus = .changeObserved then 1 else 0)
  { (LiveRuntimeFacts.default : LiveRuntimeFacts F V) with
    facts := { (RuntimeFacts.default : RuntimeFacts F V) with
      issueCodes := .ofList observed.regressionSignals
      metrics := if known then OrderedMap.empty.insert "observable_change" change else .empty }
    completeDomains := [.issueCodes] ++ if known then [.metrics] else []
    metricKeys := if known then .ofList ["observable_change"] else .empty
    evidenceIds := observed.evidenceIds }

variable [DecidableEq V]

/-- The catalog on what was observed. -/
def productionContractSummary (observed : ProductionObservedVerificationInput) :
    Except VerificationError ContractEvaluationSummary := do
  let compiled ← (ContractRegistry.compileAutonomousSubset
      (productionContractRegistry (F := F) (V := V)) .empty).mapError
    VerificationError.contractCatalog
  return evaluateCompiledContracts compiled (observedFacts observed) .empty
    productionContractCatalogRevision

end

section
variable {F V : Type} [Binary64 F] (digests : MutationDigests F V)

/-- Notices a change of place or size. -/
def geometryDetector (before after : SyntheticMutationState F V) : OrderedSet String :=
  if Binary64.eq before.x after.x && Binary64.eq before.y after.y &&
      Binary64.eq before.width after.width && Binary64.eq before.height after.height then .empty
  else .ofList ["geometry_changed"]

omit [Binary64 F] in
/-- Notices a change of name. -/
def nameDetector (before after : SyntheticMutationState F V) : OrderedSet String :=
  if before.accessibleName ≠ after.accessibleName then .ofList ["name_changed"] else .empty

/-- The two mutations that are always tried. -/
def productionMutationChallenges : List MutationChallengeResult :=
  [executeMutationChallenge digests
      (.syntheticSafe 0x7d1b4f346bcc4a23a0a8382e2cab1001 "trusted-verify:selected-target"
        (.shift (Binary64.ofNat 17) (Binary64.ofNat 11)) (.ofList ["geometry_changed"]))
      .default .default geometryDetector,
    executeMutationChallenge digests
      (.syntheticSafe 0x7d1b4f346bcc4a23a0a8382e2cab1002 "trusted-verify:selected-target"
        .removeAccessibleName (.ofList ["name_changed"]))
      .default .default nameDetector]

end

/-- What an observation shows of the impact. -/
def observedImpact (observed : ProductionObservedVerificationInput) : ActualImpact where
  targets := OrderedSet.ofList <|
    (if observed.referenceChanged then
      (nonBlank observed.reference).toList.map (mk .reference) ++
        [⟨.route, observed.canonicalRoute⟩]
    else []) ++
    (List.range observed.visualRegionCount).map (fun index =>
      ⟨.visualRegion, s!"{observed.canonicalRoute}#visual-region-{index}"⟩) ++
    observed.regressionSignals.map (mk .issueClass)
  evidenceIds := sortedDedup observed.evidenceIds
  observationScopeComplete := decide (observed.deterministicStatus ≠ .inconclusive)

/-! ## The receipt -/

/-- A state not looked at, and why. -/
structure SkippedState where
  (stateKey reason : String)

/-- What a verification may use, and used. -/
structure VerificationResourceBudget where
  admitted : Bool
  (maxStates executedStates maxMutations executedMutations maxRuntimeMs observedRuntimeMs : Nat)
  denialReason : Option String

/-- No limit is passed. -/
def VerificationResourceBudget.withinBudget (b : VerificationResourceBudget) : Bool :=
  b.admitted && decide (b.executedStates ≤ b.maxStates) &&
    decide (b.executedMutations ≤ b.maxMutations) && decide (b.observedRuntimeMs ≤ b.maxRuntimeMs)

/-- That nothing is left running. -/
structure VerificationCleanupProof where
  shadow : ShadowCleanupProof
  (shadowProcessesTerminated loopbackPortReleased realWorktreeUnchanged : Bool)
  externalSideEffectsObserved : Bool

/-- Everything is cleaned up. -/
def VerificationCleanupProof.complete (c : VerificationCleanupProof) : Bool :=
  c.shadow.attempted && c.shadow.worktreeRemoved && c.shadow.directoryAbsent &&
    c.shadowProcessesTerminated && c.loopbackPortReleased && c.realWorktreeUnchanged &&
    !c.externalSideEffectsObserved

/-- What a bounded verification speaks of. -/
inductive BoundedVerificationScope
  | currentTargetCurrentRoute

/-- The verdict within the bounded scope. -/
inductive BoundedVerificationVerdict
  | verified
  | rejected
  | inconclusive
deriving DecidableEq

/-- The receipt of a bounded verification. -/
structure BoundedVerificationReceipt where
  schemaVersion : Nat
  scope : BoundedVerificationScope
  canonicalRoute : String
  reference : Option String
  snapshotVersion : Nat
  verdict : BoundedVerificationVerdict
  (reasons evidenceIds : List String)

/-- The verdict of a whole verification. -/
inductive AutonomousVerificationVerdict
  | verified
  | rejected
  | inconclusive

/-- The receipt's version. -/
def autonomousVerificationReceiptSchemaVersion : Nat := 2

/-- The receipt of a whole verification. -/
structure AutonomousVerificationReceipt where
  schemaVersion : Nat
  (baseRevision candidateId patchDigest : String)
  isolationType : IsolationLevel
  externalSideEffectContainment : ExternalSideEffectContainment
  affectedStatePlanHash : String
  contractsEvaluated : ContractEvaluationSummary
  mutationResults : List MutationChallengeResult
  predictedImpact : PredictedImpact
  actualImpact : ActualImpact
  impactComparison : ImpactComparison
  unexpectedImpact : List ImpactTarget
  (evidenceIds staleEvidenceIds revalidatedStateSet : List String)
  skippedStates : List SkippedState
  resourceBudget : VerificationResourceBudget
  cleanupProof : VerificationCleanupProof
  boundedVerification : Option BoundedVerificationReceipt
  finalVerdict : AutonomousVerificationVerdict
  reasons : List String

/-- What a receipt is built from. -/
structure AutonomousVerificationInput (F V : Type) where
  affected : AffectedStatePlan F V
  shadowProof : ShadowCandidateProof
  contracts : ContractEvaluationSummary
  mutations : List MutationChallengeResult
  predictedImpact : PredictedImpact
  actualImpact : ActualImpact
  revalidationPlan : PartialRevalidationPlan
  revalidatedStates : OrderedSet String
  skippedStates : List SkippedState
  staleEvidenceIds : List String
  resourceBudget : VerificationResourceBudget
  cleanupProof : VerificationCleanupProof

/-- A reason, if it applies. -/
def pushIf (raised : Bool) (reason : String) : List String := if raised then [reason] else []

/-- Mutations nothing noticed. -/
def survivedCount (results : List MutationChallengeResult) : Nat :=
  (results.filter fun result => decide (result.outcome.verdict = .survived)).length

/-- Mutations that say nothing. -/
def skippedOrInvalidCount (results : List MutationChallengeResult) : Nat :=
  (results.filter fun result =>
    decide (result.outcome.verdict = .skippedUnsafe ∨ result.outcome.verdict = .invalid)).length

section
variable {F V : Type}

section
variable (input : AutonomousVerificationInput F V)

/-- The planned states that were neither checked again nor skipped by name. -/
def AutonomousVerificationInput.unaccounted : List String :=
  ((OrderedSet.ofList input.revalidationPlan.stateKeys).difference input.revalidatedStates).filter
    fun state => !(input.skippedStates.map (·.stateKey)).contains state

/-- The shadow proof is for another candidate. -/
def AutonomousVerificationInput.identityMismatch : Bool :=
  decide (input.shadowProof.baseRevision ≠ input.affected.baseRevision) ||
    decide (input.shadowProof.patchDigest ≠ input.affected.change.patchDigest) ||
    decide (input.shadowProof.candidateId.display ≠ input.affected.change.candidateId)

/-- All the evidence, once each. -/
def collectEvidenceIds : List String :=
  sortedDedup <|
    input.affected.evidenceProvenance ++
    input.shadowProof.changedFiles.map (fun path => s!"shadow-file:{path}") ++
    input.contracts.evaluated.flatMap (·.evidenceIds) ++
    input.mutations.flatMap (·.outcome.evidenceIds) ++
    input.predictedImpact.evidenceIds ++ input.actualImpact.evidenceIds

/-- Why the verdict is not better. -/
def autonomousReasons (comparison : ImpactComparison) :
    List String :=
  pushIf input.identityMismatch "candidate identity/base revision/patch binding mismatch" ++
  pushIf (!input.shadowProof.realWorktreeUnchanged)
    "real working tree changed during candidate verification" ++
  pushIf (decide (input.shadowProof.externalSideEffectContainment ≠ .provenBlocked))
    "external side-effect containment is not proven" ++
  pushIf (!input.contracts.hardFailures.isEmpty)
    s!"{input.contracts.hardFailures.length} hard contract(s) failed" ++
  pushIf (!input.contracts.hardUnknowns.isEmpty)
    s!"{input.contracts.hardUnknowns.length} hard contract(s) remain unknown" ++
  pushIf (decide (0 < survivedCount input.mutations))
    s!"{survivedCount input.mutations} mutation challenge(s) survived" ++
  pushIf (decide (0 < skippedOrInvalidCount input.mutations))
    s!"{skippedOrInvalidCount input.mutations} mutation challenge(s) were skipped or invalid" ++
  pushIf (!comparison.unexpectedObservedImpact.isEmpty)
    (s!"{comparison.unexpectedObservedImpact.length} unexpected actual impact target(s) " ++
      "were observed") ++
  pushIf (!comparison.inconclusive.isEmpty)
    s!"{comparison.inconclusive.length} predicted impact target(s) remain inconclusive" ++
  pushIf (!input.revalidationPlan.completeClaimAllowed)
    "partial revalidation cannot claim complete coverage" ++
  pushIf (!input.affected.denominatorKnown) "affected-state denominator is unknown" ++
  pushIf input.affected.incomplete "affected-state plan is incomplete" ++
  pushIf (!input.staleEvidenceIds.isEmpty)
    s!"{input.staleEvidenceIds.length} stale evidence object(s) were excluded" ++
  pushIf (!input.resourceBudget.withinBudget)
    (input.resourceBudget.denialReason.getD "verification resource budget was not satisfied") ++
  pushIf (!input.cleanupProof.complete) "candidate cleanup/isolation proof is incomplete" ++
  pushIf (!input.unaccounted.isEmpty)
    (s!"{input.unaccounted.length} planned revalidation state(s) were neither executed " ++
      "nor explicitly skipped")

/-- Rejected goes before inconclusive. -/
def autonomousVerdict (comparison : ImpactComparison) :
    AutonomousVerificationVerdict :=
  let rejected := input.identityMismatch ||
    !input.shadowProof.realWorktreeUnchanged ||
    !input.contracts.hardFailures.isEmpty ||
    !input.cleanupProof.complete
  let inconclusive := !input.contracts.hardUnknowns.isEmpty ||
    decide (0 < survivedCount input.mutations) ||
    decide (0 < skippedOrInvalidCount input.mutations) ||
    !comparison.unexpectedObservedImpact.isEmpty ||
    !comparison.inconclusive.isEmpty ||
    !input.revalidationPlan.completeClaimAllowed ||
    !input.affected.denominatorKnown ||
    input.affected.incomplete ||
    !input.staleEvidenceIds.isEmpty ||
    !input.resourceBudget.withinBudget ||
    !input.unaccounted.isEmpty ||
    decide (input.shadowProof.externalSideEffectContainment ≠ .provenBlocked)
  if rejected then .rejected else if inconclusive then .inconclusive else .verified

end

/-- The receipt, its impacts compared. -/
def buildAutonomousReceipt (objectHash : AffectedStatePlan F V → String)
    (input : AutonomousVerificationInput F V) : AutonomousVerificationReceipt :=
  let comparison := comparePredictedActual input.predictedImpact input.actualImpact
  { schemaVersion := autonomousVerificationReceiptSchemaVersion
    baseRevision := input.affected.baseRevision, candidateId := input.affected.change.candidateId
    patchDigest := input.affected.change.patchDigest, isolationType := input.shadowProof.isolation
    externalSideEffectContainment := input.shadowProof.externalSideEffectContainment
    affectedStatePlanHash := objectHash input.affected, contractsEvaluated := input.contracts
    mutationResults := input.mutations, predictedImpact := input.predictedImpact
    actualImpact := input.actualImpact, impactComparison := comparison
    unexpectedImpact := comparison.unexpectedObservedImpact, evidenceIds := collectEvidenceIds input
    staleEvidenceIds := sortedDedup input.staleEvidenceIds
    revalidatedStateSet := input.revalidatedStates.toList, skippedStates := input.skippedStates
    resourceBudget := input.resourceBudget, cleanupProof := input.cleanupProof
    boundedVerification := none, finalVerdict := autonomousVerdict input comparison
    reasons := sortedDedup (autonomousReasons input comparison) }

end

/-! ## The bounded verdict -/

/-- What the comparison adds to the reasons. -/
def deterministicReason : ProductionDeterministicStatus → List String
  | .changeObserved => []
  | .noObservableChange => ["deterministic verification did not observe the reviewed change"]
  | .regressionSignal => ["deterministic verification observed a regression signal"]
  | .inconclusive => ["deterministic verification remains inconclusive"]

section
variable (observed : ProductionObservedVerificationInput)
  (autonomous : AutonomousVerificationReceipt)

/-- Why the bounded verdict is not better. -/
def boundedReasons : List String :=
  pushIf (nonBlank observed.reference).isNone
    "bounded verification target reference is unavailable" ++
  pushIf (!observed.referenceChanged)
    "bounded verification did not observe a change on the selected target" ++
  deterministicReason observed.deterministicStatus ++
  pushIf (!autonomous.contractsEvaluated.hardFailures.isEmpty)
    s!"{autonomous.contractsEvaluated.hardFailures.length} bounded hard contract(s) failed" ++
  pushIf (!autonomous.contractsEvaluated.hardUnknowns.isEmpty)
    s!"{autonomous.contractsEvaluated.hardUnknowns.length} bounded hard contract(s) remain unknown" ++
  pushIf (decide (0 < survivedCount autonomous.mutationResults))
    s!"{survivedCount autonomous.mutationResults} bounded mutation challenge(s) survived" ++
  pushIf (decide (0 < skippedOrInvalidCount autonomous.mutationResults))
    (s!"{skippedOrInvalidCount autonomous.mutationResults} bounded mutation challenge(s) " ++
      "were skipped or invalid") ++
  pushIf (decide (autonomous.externalSideEffectContainment ≠ .provenBlocked))
    "bounded verification side-effect containment is not proven" ++
  pushIf (!autonomous.cleanupProof.complete)
    "bounded verification cleanup proof is incomplete" ++
  pushIf (!autonomous.resourceBudget.withinBudget)
    "bounded verification resource budget was not satisfied" ++
  pushIf (!autonomous.staleEvidenceIds.isEmpty)
    "bounded verification contains stale evidence debt" ++
  pushIf (!autonomous.unexpectedImpact.isEmpty)
    (s!"{autonomous.unexpectedImpact.length} unexpected impact target(s) remain " ++
      "outside the bounded prediction") ++
  pushIf (!autonomous.impactComparison.inconclusive.isEmpty)
    s!"{autonomous.impactComparison.inconclusive.length} impact target(s) remain inconclusive"

/-- The verdict for the target alone. -/
def boundedVerdict : BoundedVerificationVerdict :=
  let rejected := decide (observed.deterministicStatus = .noObservableChange) ||
    decide (observed.deterministicStatus = .regressionSignal) ||
    !autonomous.contractsEvaluated.hardFailures.isEmpty ||
    !autonomous.cleanupProof.complete
  let inconclusive := (nonBlank observed.reference).isNone ||
    !observed.referenceChanged ||
    decide (observed.deterministicStatus = .inconclusive) ||
    !autonomous.contractsEvaluated.hardUnknowns.isEmpty ||
    decide (0 < survivedCount autonomous.mutationResults) ||
    decide (0 < skippedOrInvalidCount autonomous.mutationResults) ||
    decide (autonomous.externalSideEffectContainment ≠ .provenBlocked) ||
    !autonomous.resourceBudget.withinBudget ||
    !autonomous.staleEvidenceIds.isEmpty ||
    !autonomous.unexpectedImpact.isEmpty ||
    !autonomous.impactComparison.inconclusive.isEmpty
  if rejected then .rejected else if inconclusive then .inconclusive else .verified

/-- The bounded part of a receipt. -/
def buildBoundedTargetVerification : BoundedVerificationReceipt where
  schemaVersion := 1
  scope := .currentTargetCurrentRoute
  canonicalRoute := observed.canonicalRoute
  reference := nonBlank observed.reference
  snapshotVersion := observed.snapshotVersion
  verdict := boundedVerdict observed autonomous
  reasons := sortedDedup (boundedReasons observed autonomous)
  evidenceIds := autonomous.evidenceIds

end

section
variable {F G V : Type} [Score32 F] [Binary64 G] [DecidableEq V]

/-- What the receipt is built from, once the preflight is complete.  No candidate process
runs and no port is reserved before a change is applied, so those two obligations stand. -/
def observationReceiptInput (affected : AffectedStatePlan F V) (predicted : PredictedImpact)
    (shadowProof : ShadowCandidateProof) (shadowCleanup : ShadowCleanupProof)
    (contracts : ContractEvaluationSummary) (mutations : List MutationChallengeResult)
    (observed : ProductionObservedVerificationInput) : AutonomousVerificationInput F V where
  affected := affected
  shadowProof := shadowProof
  contracts := contracts
  mutations := mutations
  predictedImpact := predicted
  actualImpact := observedImpact observed
  revalidationPlan := planPartialRevalidation
    { affected := affected, impactedFlowCheckpoints := .empty, relevantVisualBaselines := .empty
      sourceSemanticChecks := .ofList ["trusted-fix-postimage"], knownUniverse := none }
  revalidatedStates := .ofList (affected.compiledStates.map (·.key))
  skippedStates := []
  staleEvidenceIds := []
  resourceBudget :=
    { admitted := true, maxStates := 1, executedStates := 1, maxMutations := mutations.length
      executedMutations := mutations.length, maxRuntimeMs := 15000
      observedRuntimeMs := observed.observedRuntimeMs, denialReason := none }
  cleanupProof :=
    { shadow := shadowCleanup, shadowProcessesTerminated := true, loopbackPortReleased := true
      realWorktreeUnchanged := shadowProof.realWorktreeUnchanged
      externalSideEffectsObserved := false }

/-- The receipt of an observed change, if the preflight is complete. -/
def buildProductionObservationReceipt (hashes : VerificationHashes F V)
    (digests : MutationDigests G V) (preflight : ProductionCandidatePreflightReceipt F V)
    (observed : ProductionObservedVerificationInput) :
    Except VerificationError AutonomousVerificationReceipt := do
  let affected ← okOr preflight.affectedStatePlan VerificationError.planMissing
  rejectIf (preflight.affectedStatePlanHash ≠ some (hashes.objectHash affected))
    VerificationError.digestMismatch
  let predicted := preflight.predictedImpact.getD (impactTargetsFromAffected affected)
  let shadowProof ← okOr preflight.shadowProof VerificationError.shadowProofMissing
  let shadowCleanup ← okOr preflight.cleanupProof VerificationError.cleanupProofMissing
  let contracts ← productionContractSummary (F := G) (V := V) observed
  let receipt := buildAutonomousReceipt hashes.objectHash
    (observationReceiptInput affected predicted shadowProof shadowCleanup contracts
      (productionMutationChallenges digests) observed)
  return { receipt with
    boundedVerification := some (buildBoundedTargetVerification observed receipt) }

end
end Localview
