import Localview.AutonomousVerification
import Localview.FindingReport

/-! # The bounded verdict is sound

The bounded verdict goes over a fixed list of checks (`boundedFindings`), and both its
reasons and its verdict are those of the report on that list.  A verified one therefore had
no check raised: in particular no impact was observed outside what the preflight predicts,
which for a bound preflight is its route and its reference.
-/
namespace Localview
open EarlyReturn FindingReport List OrderedSet ImpactTarget

/-! ## Verdicts as reports -/

section
variable (observed : ProductionObservedVerificationInput)
  (autonomous : AutonomousVerificationReceipt)

/-- The checks of the bounded verdict. -/
def boundedFindings : List Finding :=
  [⟨(nonBlank observed.reference).isNone, .leavesOpen,
      "bounded verification target reference is unavailable"⟩,
    ⟨!observed.referenceChanged, .leavesOpen,
      "bounded verification did not observe a change on the selected target"⟩,
    ⟨decide (observed.deterministicStatus = .noObservableChange), .rejects,
      "deterministic verification did not observe the reviewed change"⟩,
    ⟨decide (observed.deterministicStatus = .regressionSignal), .rejects,
      "deterministic verification observed a regression signal"⟩,
    ⟨decide (observed.deterministicStatus = .inconclusive), .leavesOpen,
      "deterministic verification remains inconclusive"⟩,
    ⟨!autonomous.contractsEvaluated.hardFailures.isEmpty, .rejects,
      s!"{autonomous.contractsEvaluated.hardFailures.length} bounded hard contract(s) failed"⟩,
    ⟨!autonomous.contractsEvaluated.hardUnknowns.isEmpty, .leavesOpen,
      s!"{autonomous.contractsEvaluated.hardUnknowns.length} bounded hard contract(s) remain unknown"⟩,
    ⟨decide (0 < survivedCount autonomous.mutationResults), .leavesOpen,
      s!"{survivedCount autonomous.mutationResults} bounded mutation challenge(s) survived"⟩,
    ⟨decide (0 < skippedOrInvalidCount autonomous.mutationResults), .leavesOpen,
      s!"{skippedOrInvalidCount autonomous.mutationResults} bounded mutation challenge(s) " ++
        "were skipped or invalid"⟩,
    ⟨decide (autonomous.externalSideEffectContainment ≠ .provenBlocked), .leavesOpen,
      "bounded verification side-effect containment is not proven"⟩,
    ⟨!autonomous.cleanupProof.complete, .rejects,
      "bounded verification cleanup proof is incomplete"⟩,
    ⟨!autonomous.resourceBudget.withinBudget, .leavesOpen,
      "bounded verification resource budget was not satisfied"⟩,
    ⟨!autonomous.staleEvidenceIds.isEmpty, .leavesOpen,
      "bounded verification contains stale evidence debt"⟩,
    ⟨!autonomous.unexpectedImpact.isEmpty, .leavesOpen,
      s!"{autonomous.unexpectedImpact.length} unexpected impact target(s) remain " ++
        "outside the bounded prediction"⟩,
    ⟨!autonomous.impactComparison.inconclusive.isEmpty, .leavesOpen,
      s!"{autonomous.impactComparison.inconclusive.length} impact target(s) remain inconclusive"⟩]

def boundedVerdictOf : FindingReport.Verdict → BoundedVerificationVerdict
  | .verified => .verified
  | .rejected => .rejected
  | .inconclusive => .inconclusive

theorem deterministicReason_eq (status : ProductionDeterministicStatus) :
    deterministicReason status =
      pushIf (decide (status = .noObservableChange))
        "deterministic verification did not observe the reviewed change" ++
      pushIf (decide (status = .regressionSignal))
        "deterministic verification observed a regression signal" ++
      pushIf (decide (status = .inconclusive))
        "deterministic verification remains inconclusive" := by
  cases status <;> rfl

theorem boundedReasons_eq :
    boundedReasons observed autonomous = reasons (boundedFindings observed autonomous) := by
  rw [boundedReasons, deterministicReason_eq]
  simp only [boundedFindings, reasons, pushIf, append_assoc, append_nil]

theorem boundedVerdict_eq :
    boundedVerdict observed autonomous =
      boundedVerdictOf (verdict (boundedFindings observed autonomous)) := by
  have hrejects : raises .rejects (boundedFindings observed autonomous) =
      (decide (observed.deterministicStatus = .noObservableChange) ||
        decide (observed.deterministicStatus = .regressionSignal) ||
        !autonomous.contractsEvaluated.hardFailures.isEmpty ||
        !autonomous.cleanupProof.complete) := by
    simp [raises, boundedFindings, Bool.or_assoc]
  have hopen : raises .leavesOpen (boundedFindings observed autonomous) =
      ((nonBlank observed.reference).isNone ||
        !observed.referenceChanged ||
        decide (observed.deterministicStatus = .inconclusive) ||
        !autonomous.contractsEvaluated.hardUnknowns.isEmpty ||
        decide (0 < survivedCount autonomous.mutationResults) ||
        decide (0 < skippedOrInvalidCount autonomous.mutationResults) ||
        decide (autonomous.externalSideEffectContainment ≠ .provenBlocked) ||
        !autonomous.resourceBudget.withinBudget ||
        !autonomous.staleEvidenceIds.isEmpty ||
        !autonomous.unexpectedImpact.isEmpty ||
        !autonomous.impactComparison.inconclusive.isEmpty) := by
    simp [raises, boundedFindings, Bool.or_assoc]
  rw [boundedVerdict, verdict, hrejects, hopen]
  split
  · rfl
  · split <;> rfl

theorem boundedVerdict_eq_verified :
    boundedVerdict observed autonomous = .verified ↔
      ∀ f ∈ boundedFindings observed autonomous, f.raised = false := by
  rw [boundedVerdict_eq, ← verdict_eq_verified]
  cases verdict (boundedFindings observed autonomous) <;> simp [boundedVerdictOf]

/-- The bounded verdict gives no reason just when it is good. -/
theorem bounded_reasons_eq_nil_iff :
    (buildBoundedTargetVerification observed autonomous).reasons = [] ↔
      (buildBoundedTargetVerification observed autonomous).verdict = .verified := by
  simp only [buildBoundedTargetVerification]
  rw [sortedDedup, toList_ofList_eq_nil, boundedReasons_eq, reasons_eq_nil,
    boundedVerdict_eq_verified]

end

/-- Nothing speaks against the candidate or is left open: the contracts, the containment
and the cleanup. -/
structure ProvenClean (r : AutonomousVerificationReceipt) : Prop where
  no_hard_failures : r.contractsEvaluated.hardFailures = []
  no_hard_unknowns : r.contractsEvaluated.hardUnknowns = []
  containment_proven : r.externalSideEffectContainment = .provenBlocked
  cleanup_complete : r.cleanupProof.complete = true
  nothing_unexpected : r.unexpectedImpact = []

variable {observed : ProductionObservedVerificationInput}

theorem provenClean_of_bounded {r : AutonomousVerificationReceipt}
    (h : boundedVerdict observed r = .verified) :
    ProvenClean r ∧ (∃ reference, nonBlank observed.reference = some reference) ∧
      observed.referenceChanged = true := by
  rw [boundedVerdict_eq_verified] at h
  simp only [boundedFindings, List.forall_mem_cons, Bool.not_eq_false', decide_eq_false_iff_not,
    not_not, List.isEmpty_iff, Option.isNone_eq_false_iff, Option.isSome_iff_exists] at h
  obtain ⟨href, hchanged, -, -, -, hfailures, hunknowns, -, -, hcontained, hclean, -, -, hunexp, -⟩ := h
  exact ⟨⟨hfailures, hunknowns, hcontained, hclean, hunexp⟩, href, hchanged⟩

theorem provenClean_of_final {F V : Type} {input : AutonomousVerificationInput F V}
    (objectHash : AffectedStatePlan F V → String)
    (h : (buildAutonomousReceipt objectHash input).finalVerdict = .verified) :
    ProvenClean (buildAutonomousReceipt objectHash input) ∧
      input.affected.denominatorKnown = true := by
  have hverdict : autonomousVerdict input
      (comparePredictedActual input.predictedImpact input.actualImpact) = .verified := h
  rw [autonomousVerdict] at hverdict
  split at hverdict
  · cases hverdict
  · rename_i hrejected
    split at hverdict
    · cases hverdict
    · rename_i hinconclusive
      simp only [Bool.or_eq_true, not_or, Bool.not_eq_true', Bool.not_eq_false,
        isEmpty_eq_false_iff, ne_eq, not_not, decide_eq_true_eq] at hrejected hinconclusive
      obtain ⟨⟨_, hfailures⟩, hclean⟩ := hrejected
      obtain ⟨⟨⟨⟨⟨⟨⟨⟨⟨⟨⟨hunknowns, _⟩, _⟩, hunexp⟩, _⟩, _⟩, hdenominator⟩, _⟩, _⟩, _⟩, _⟩,
        hcontained⟩ := hinconclusive
      exact ⟨⟨hfailures, hunknowns, hcontained, hclean, hunexp⟩, hdenominator⟩

/-! ## The prediction -/

/-- Nothing was observed outside the prediction. -/
structure WithinPrediction (predicted : PredictedImpact)
    (observed : ProductionObservedVerificationInput) : Prop where
  route_predicted : observed.referenceChanged = true →
    ⟨.route, observed.canonicalRoute⟩ ∈ predicted.targets.toList
  reference_predicted : observed.referenceChanged = true →
    ∀ reference, nonBlank observed.reference = some reference →
      ⟨.reference, reference⟩ ∈ predicted.targets.toList
  regions_predicted : ∀ index < observed.visualRegionCount,
    ⟨.visualRegion, s!"{observed.canonicalRoute}#visual-region-{index}"⟩ ∈ predicted.targets.toList
  signals_predicted : ∀ signal ∈ observed.regressionSignals,
    ⟨.issueClass, signal⟩ ∈ predicted.targets.toList

theorem mem_observedImpact {t : ImpactTarget} :
    t ∈ (observedImpact observed).targets.toList ↔
      (observed.referenceChanged = true ∧
        (t = ⟨.route, observed.canonicalRoute⟩ ∨
          ∃ reference, nonBlank observed.reference = some reference ∧ t = ⟨.reference, reference⟩)) ∨
      (∃ index < observed.visualRegionCount,
        t = ⟨.visualRegion, s!"{observed.canonicalRoute}#visual-region-{index}"⟩) ∨
      ∃ signal ∈ observed.regressionSignals, t = ⟨.issueClass, signal⟩ := by
  rw [observedImpact, mem_ofList, mem_append, mem_append, or_assoc]
  refine or_congr ?_ (or_congr ?_ ?_)
  · cases observed.referenceChanged
    · simp
    · simp [eq_comm, or_comm]
  · simp [eq_comm]
  · simp [eq_comm]

theorem withinPrediction {predicted : PredictedImpact}
    (h : (comparePredictedActual predicted (observedImpact observed)).unexpectedObservedImpact = []) :
    WithinPrediction predicted observed := by
  rw [comparePredictedActual, difference_eq_nil] at h
  exact {
    route_predicted := fun hchanged =>
      h _ (mem_observedImpact.mpr (.inl ⟨hchanged, .inl rfl⟩))
    reference_predicted := fun hchanged reference href =>
      h _ (mem_observedImpact.mpr (.inl ⟨hchanged, .inr ⟨reference, href, rfl⟩⟩))
    regions_predicted := fun index hindex =>
      h _ (mem_observedImpact.mpr (.inr (.inl ⟨index, hindex, rfl⟩)))
    signals_predicted := fun signal hsignal =>
      h _ (mem_observedImpact.mpr (.inr (.inr ⟨signal, hsignal, rfl⟩))) }

section
variable {F : Type} {V : Type} [Score32 F] {hashes : VerificationHashes F V}
  {unbound preflight : ProductionCandidatePreflightReceipt F V}
  {candidate : CounterfactualCandidate} {route : String} {reference : Option String}

/-- A bound preflight predicts its route and its reference, nothing else, and does not
know its denominator. -/
theorem bound_preflight
    (h : bindProductionAffectedState hashes unbound candidate route reference = .ok preflight) :
    ∃ affected, preflight.affectedStatePlan = some affected ∧
      affected.denominatorKnown = false ∧
      ∃ predicted, preflight.predictedImpact = some predicted ∧
        ∀ t, t ∈ predicted.targets.toList ↔
          t = ⟨.route, route⟩ ∨
            ∃ bound, nonBlank reference = some bound ∧ t = ⟨.reference, bound⟩ := by
  simp only [bindProductionAffectedState, bind_eq_ok, rejectIf_eq_ok, mapError_eq_ok,
    exists_const] at h
  obtain ⟨-, -, affected, haffected, hbound⟩ := h
  obtain ⟨compiled, rfl⟩ := compileAffectedStatePlan_eq_ok haffected
  cases hbound
  refine ⟨_, rfl, rfl, _, rfl, fun t => ?_⟩
  simp [impactTargetsFromAffected, buildPlan, affectedStateInput, eq_comm]

end

section
variable {F G V : Type} [Binary64 G] [DecidableEq V] {hashes : VerificationHashes F V}
  {digests : MutationDigests G V} {preflight : ProductionCandidatePreflightReceipt F V}
  {observed : ProductionObservedVerificationInput} {receipt : AutonomousVerificationReceipt}

theorem built_receipt
    (h : buildProductionObservationReceipt hashes digests preflight observed = .ok receipt) :
    ∃ affected shadowProof shadowCleanup contracts,
      preflight.affectedStatePlan = some affected ∧
      preflight.shadowProof = some shadowProof ∧
      preflight.cleanupProof = some shadowCleanup ∧
      let built := buildAutonomousReceipt hashes.objectHash
        (observationReceiptInput affected
          (preflight.predictedImpact.getD (impactTargetsFromAffected affected)) shadowProof
          shadowCleanup contracts (productionMutationChallenges digests) observed)
      receipt = { built with
        boundedVerification := some (buildBoundedTargetVerification observed built) } := by
  simp only [buildProductionObservationReceipt, bind_eq_ok, okOr_eq_ok, rejectIf_eq_ok,
    exists_const] at h
  obtain ⟨affected, haffected, -, shadowProof, hproof, shadowCleanup, hcleanup, contracts, -,
    hreceipt⟩ := h
  cases hreceipt
  exact ⟨affected, shadowProof, shadowCleanup, contracts, haffected, hproof, hcleanup, rfl⟩

/-- The receipt calls the candidate verified, as a whole or on its target. -/
def AutonomousVerificationReceipt.ReportsVerified (r : AutonomousVerificationReceipt) : Prop :=
  r.finalVerdict = .verified ∨
    ∃ bounded, r.boundedVerification = some bounded ∧ bounded.verdict = .verified

/-- The preflight's own proofs: the containment, the worktree and the cleanup. -/
structure PreflightProven (p : ProductionCandidatePreflightReceipt F V) : Prop where
  containment_proven : ∃ proof, p.shadowProof = some proof ∧
    proof.externalSideEffectContainment = .provenBlocked ∧ proof.realWorktreeUnchanged = true
  cleanup_complete : ∃ cleanup, p.cleanupProof = some cleanup ∧
    cleanup.attempted = true ∧ cleanup.worktreeRemoved = true ∧ cleanup.directoryAbsent = true

theorem cleanupProof_complete {c : VerificationCleanupProof} :
    c.complete = true ↔
      (c.shadow.attempted = true ∧ c.shadow.worktreeRemoved = true ∧
        c.shadow.directoryAbsent = true) ∧
      (c.shadowProcessesTerminated = true ∧ c.loopbackPortReleased = true) ∧
      c.realWorktreeUnchanged = true ∧ c.externalSideEffectsObserved = false := by
  simp [VerificationCleanupProof.complete, and_assoc]

theorem reportsVerified_clean
    (h : buildProductionObservationReceipt hashes digests preflight observed = .ok receipt)
    (hverified : receipt.ReportsVerified) :
    ProvenClean receipt ∧ PreflightProven preflight ∧
      WithinPrediction receipt.predictedImpact observed := by
  obtain ⟨affected, proof, cleanup, contracts, -, hproof, hcleanup, rfl⟩ := built_receipt h
  -- both verdicts are over the same receipt, before the bounded one is put in
  have hclean : ProvenClean (buildAutonomousReceipt hashes.objectHash
      (observationReceiptInput affected
        (preflight.predictedImpact.getD (impactTargetsFromAffected affected)) proof cleanup
        contracts (productionMutationChallenges digests) observed)) := by
    rcases hverified with hfinal | ⟨bounded, hbounded, hverdict⟩
    · exact (provenClean_of_final hashes.objectHash hfinal).1
    · cases hbounded
      exact (provenClean_of_bounded hverdict).1
  obtain ⟨hfailures, hunknowns, hcontained, hcomplete, hunexpected⟩ := hclean
  have hparts := cleanupProof_complete.mp hcomplete
  refine ⟨⟨hfailures, hunknowns, hcontained, hcomplete, hunexpected⟩, ⟨?_, ?_⟩,
    withinPrediction hunexpected⟩
  · exact ⟨proof, hproof, hcontained, hparts.2.2.1⟩
  · exact ⟨cleanup, hcleanup, hparts.1⟩

theorem of_nonBlank {reference : Option String} {value : String}
    (h : nonBlank reference = some value) : reference = some value :=
  (Option.filter_eq_some_iff.mp h).1

/-- Of a bound preflight: what reports verified was observed on the bound target. -/
theorem reportsVerified_on_target [Score32 F]
    {unbound : ProductionCandidatePreflightReceipt F V} {candidate : CounterfactualCandidate}
    {route : String} {reference : Option String}
    (hbind : bindProductionAffectedState hashes unbound candidate route reference = .ok preflight)
    (h : buildProductionObservationReceipt hashes digests preflight observed = .ok receipt)
    (hverified : receipt.ReportsVerified) :
    observed.canonicalRoute = route ∧ observed.reference = reference ∧
      observed.visualRegionCount = 0 ∧ observed.regressionSignals = [] := by
  have hwithin := (reportsVerified_clean h hverified).2.2
  obtain ⟨affected, haffected, hdenominator, predicted, hpredicted, htargets⟩ :=
    bound_preflight hbind
  obtain ⟨affected', proof, cleanup, contracts, haffected', -, -, rfl⟩ := built_receipt h
  cases haffected.symm.trans haffected'
  rw [hpredicted] at hwithin hverified
  obtain ⟨hroute, href, hregions, hsignals⟩ := hwithin
  have hbounded : (∃ value, nonBlank observed.reference = some value) ∧
      observed.referenceChanged = true := by
    rcases hverified with hfinal | ⟨bounded, hbounded, hverdict⟩
    -- the denominator of a bound preflight is not known, so the whole is never verified
    · have hknown : affected.denominatorKnown = true := (provenClean_of_final hashes.objectHash hfinal).2
      rw [hdenominator] at hknown
      cases hknown
    · cases hbounded
      exact (provenClean_of_bounded hverdict).2
  obtain ⟨⟨value, hvalue⟩, hchanged⟩ := hbounded
  refine ⟨?_, ?_, ?_, ?_⟩
  · rcases (htargets _).mp (hroute hchanged) with heq | ⟨_, -, heq⟩
    · exact congrArg ImpactTarget.id heq
    · cases congrArg kind heq
  · rcases (htargets _).mp (href hchanged value hvalue) with heq | ⟨bound, hbound, heq⟩
    · cases congrArg kind heq
    · have hsame : value = bound := congrArg ImpactTarget.id heq
      rw [of_nonBlank hvalue, of_nonBlank hbound, hsame]
  · by_contra hsome
    rcases (htargets _).mp (hregions 0 (Nat.pos_of_ne_zero hsome)) with heq | ⟨_, -, heq⟩
    · cases congrArg kind heq
    · cases congrArg kind heq
  · rw [eq_nil_iff_forall_not_mem]
    intro signal hsignal
    rcases (htargets _).mp (hsignals signal hsignal) with heq | ⟨_, -, heq⟩
    · cases congrArg kind heq
    · cases congrArg kind heq

/-- Bounded verification is sound.  Its reasons are empty just when it is good; a receipt
that reports verified is clean, its preflight proven and its impact predicted; and where the
preflight was bound to a route and a reference, they are those observed, with no visual
region and no regression signal. -/
theorem bounded_verification_sound [Score32 F] (hashes : VerificationHashes F V)
    (digests : MutationDigests G V) :
    (∀ observed autonomous,
      (buildBoundedTargetVerification observed autonomous).reasons = [] ↔
        (buildBoundedTargetVerification observed autonomous).verdict = .verified) ∧
    (∀ preflight observed receipt,
      buildProductionObservationReceipt hashes digests preflight observed = .ok receipt →
      receipt.ReportsVerified →
        ProvenClean receipt ∧ PreflightProven preflight ∧
          WithinPrediction receipt.predictedImpact observed) ∧
    ∀ unbound candidate route reference preflight observed receipt,
      bindProductionAffectedState hashes unbound candidate route reference = .ok preflight →
      buildProductionObservationReceipt hashes digests preflight observed = .ok receipt →
      receipt.ReportsVerified →
        observed.canonicalRoute = route ∧ observed.reference = reference ∧
          observed.visualRegionCount = 0 ∧ observed.regressionSignals = [] :=
  ⟨bounded_reasons_eq_nil_iff, fun _ _ _ => reportsVerified_clean,
    fun _ _ _ _ _ _ _ => reportsVerified_on_target⟩

end

/-! A change to one file, proposed for the reference `@e1` of `/settings` and observed
there; the digests are those of SHA-256. -/

def settingsCandidate : CounterfactualCandidate where
  id := 1
  baseRevision := "abc"
  overlays := [⟨"src/app.txt", "sha256:base", "patch"⟩]
  evidenceIds := ["proposal"]

def settingsHashes : VerificationHashes ℚ String where
  sha256Hex _ := "58b05d87951c6ba46e2fb95bcfe492dec644dfd82bdfcc45e6503d64e5e6e54d"
  objectHash _ := "sha256:2ebf8c2065242ab17b77aebee6ca2d6bfd02dcd243c6ab4d1177a44403b47daa"

def settingsDigests : MutationDigests ℚ String where
  stateDigest s :=
    if s.accessibleName = none then
      "sha256:4995b7327cab18420e1646865299aacba7e8e3d3a834761b5f754ca76ff202f7"
    else if s.x = 0 then
      "sha256:eee17468f899543c83e2bf9c58ab980c687d863f92bd116a1ef05217a6e4edc2"
    else "sha256:700e554f0e3f85b855175d2718f6951860da54188cc422fc65d9bb72097bfec0"
  executionEvidenceId _ _ _ triggered _ :=
    if triggered.contains "name_changed" then
      "mutation:f53519eae065b300e000ae5612f4fbe9a11eed00c65adba37ae26dd786e4d5ab"
    else "mutation:377ea03aed552920bb988560da926af390cb1311c54e00c9953b06bd80118c57"

def settingsShadowProof : ShadowCandidateProof where
  candidateId := 1
  baseRevision := "abc"
  patchDigest := "sha256:58b05d87951c6ba46e2fb95bcfe492dec644dfd82bdfcc45e6503d64e5e6e54d"
  isolation := .semanticOnly
  changedFiles := ["src/app.txt"]
  realWorktreeUnchanged := true
  externalSideEffectContainment := .provenBlocked

def settingsUnbound : ProductionCandidatePreflightReceipt ℚ String where
  candidateId := some "00000000-0000-0000-0000-000000000001"
  baseRevision := some "abc"
  patchDigest := some "sha256:58b05d87951c6ba46e2fb95bcfe492dec644dfd82bdfcc45e6503d64e5e6e54d"
  affectedStatePlanHash := none
  affectedStatePlan := none
  predictedImpact := none
  affectedStateIncompleteReasons := []
  shadowProof := some settingsShadowProof
  cleanupProof := some ⟨true, true, true⟩
  verdict := .inconclusive
  reasons := []

def settingsObserved : ProductionObservedVerificationInput where
  deterministicStatus := .changeObserved
  canonicalRoute := "/settings"
  reference := some "@e1"
  snapshotVersion := 42
  referenceChanged := true
  visualRegionCount := 0
  regressionSignals := []
  evidenceIds := ["semantic:after"]
  observedRuntimeMs := 100

theorem bounded_verification_sound_settings :
    ∃ preflight receipt,
      bindProductionAffectedState settingsHashes settingsUnbound settingsCandidate "/settings"
        (some "@e1") = .ok preflight ∧
      buildProductionObservationReceipt settingsHashes settingsDigests preflight settingsObserved =
        .ok receipt ∧
      receipt.ReportsVerified ∧ ProvenClean receipt ∧
      settingsObserved.canonicalRoute = "/settings" ∧ settingsObserved.reference = some "@e1" := by
  have hrun : ∃ receipt, (bindProductionAffectedState settingsHashes settingsUnbound
        settingsCandidate "/settings" (some "@e1") >>= fun preflight =>
      buildProductionObservationReceipt settingsHashes settingsDigests preflight
        settingsObserved) = .ok receipt ∧
      (receipt.boundedVerification.map (·.verdict)) = some .verified :=
    exists_eq_ok (by decide +kernel)
  obtain ⟨receipt, hrun, hverdict⟩ := hrun
  obtain ⟨preflight, hbind, hbuild⟩ := bind_eq_ok.mp hrun
  have hverified : receipt.ReportsVerified := .inr (Option.map_eq_some_iff.mp hverdict)
  obtain ⟨-, hclean, htarget⟩ := bounded_verification_sound settingsHashes settingsDigests
  have hon := htarget _ _ _ _ _ _ _ hbind hbuild hverified
  exact ⟨preflight, receipt, hbind, hbuild, hverified, (hclean _ _ _ hbuild hverified).1,
    hon.1, hon.2.1⟩

end Localview
