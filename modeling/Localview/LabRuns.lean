import Localview.JournalFile
import Localview.LabMetrics
import Localview.StateRun

/-! # Runs of a validation lab

`LabRunBuilder`: a run is admitted, takes observations in the order of their sequence
numbers, and is finalized once.  What the artifact then says of its evidence is decided in
three places, at the admission, at each observation and at the end, and only together do
they give the order and the coverage of the completed run.
-/
namespace Localview.ValidationLab
open EarlyReturn StateRun List OrderedSet

/-! ## Preregistration -/

/-- The revisions a run is made with. -/
structure LabRevisionContext where
  (labRevision seedCorpusRevision specRevisionDigest referenceReducerRevision : String)
  (mutationCatalogRevision comparisonProfileRevision randomSourceProfile : String)
  platformProfile : Option String
  startSequence : Nat

/-- `require`, and `require_authority_field` -/
def requireField (field value : String) : Except LabError Unit :=
  rejectIf (value.isEmpty) (.emptyAuthorityField field)

def LabRevisionContext.validate (context : LabRevisionContext) : Except LabError Unit := do
  requireField "lab_revision" context.labRevision
  requireField "seed_corpus_revision" context.seedCorpusRevision
  requireField "spec_revision_digest" context.specRevisionDigest
  requireField "reference_reducer_revision" context.referenceReducerRevision
  requireField "mutation_catalog_revision" context.mutationCatalogRevision
  requireField "comparison_profile_revision" context.comparisonProfileRevision
  requireField "random_source_profile" context.randomSourceProfile
  match context.platformProfile with
  | none => pure ()
  | some platformProfile => requireField "platform_profile" platformProfile

structure LabSeedIdentity where
  (seedId predictionRevision oracleRevision : String)

def LabSeedIdentity.validate (identity : LabSeedIdentity) : Except LabError Unit := do
  requireField "seed_id" identity.seedId
  requireField "prediction_revision" identity.predictionRevision
  requireField "oracle_revision" identity.oracleRevision

def ProviderCampaignKind.requiredLayer : ProviderCampaignKind → CampaignLayer
  | .fakeProviderSimulator => .l6
  | .realProviderSeedApplications => .l7

def validateProviderCampaignLayer (campaign : ProviderCampaignKind) (actual : CampaignLayer) :
    Except LabError Unit :=
  rejectIf (actual ≠ campaign.requiredLayer)
    (.providerCampaignLayerMismatch campaign campaign.requiredLayer actual)

/-- What a run declares beforehand. -/
structure LabPreregistration where
  revisionContext : LabRevisionContext
  seedCatalogDigest : CanonicalDigest
  seedIdentities : List LabSeedIdentity
  campaignLayer : CampaignLayer
  expectedDistinctions : OrderedSet String
  modelBound : Option Nat
  assumptions : OrderedSet String
  declaredMetrics : OrderedSet LabMetricKind
  creationSequence : Nat

/-- A preregistration as bytes. -/
structure PreparedPreregistration where
  canonicalBytes : Bytes
  digest : CanonicalDigest

/-- Minted by `validate_persisted_receipt` only. -/
structure ValidatedPreregistrationReceipt where
  digest : CanonicalDigest
  logicalSequence : Nat
  persistenceRef : String
  logicalSequence_ne : logicalSequence ≠ 0
  persistenceRef_ne : persistenceRef.isEmpty = false

structure PreregistrationReceiptProjection where
  digest : CanonicalDigest
  logicalSequence : Nat
  persistenceRef : String

def ValidatedPreregistrationReceipt.projection (receipt : ValidatedPreregistrationReceipt) :
    PreregistrationReceiptProjection :=
  { digest := receipt.digest, logicalSequence := receipt.logicalSequence
    persistenceRef := receipt.persistenceRef }

/-! ## Runs -/

/-- What a completed run may claim. -/
inductive ResearchResultClass
  | exploratoryObservation
  | preregisteredSeedPass
  | counterexampleFound
  | noCounterexampleWithinBoundN
  | mutantKilled
  | mutantSurvived
  | differentialEquivalentWithinVectorSet
  | differentialDivergenceFound
  | propertyCampaignPassN
  | realProviderIntegrationPass
  | independentReplicationPass

/-- What the run's evidence would claim. -/
inductive ResultEvidence
  | exploratoryObservation
  | preregisteredSeedPass
  | counterexampleFound
  | noCounterexampleWithinBoundN
  | mutantKilled
  | mutantSurvived
  | differentialEquivalentWithinVectorSet
  | differentialDivergenceFound
  | propertyCampaignPassN
  | realProviderIntegrationPass
  | independentReplicationPass
  deriving DecidableEq

def ResultEvidence.resultClass : ResultEvidence → ResearchResultClass
  | .exploratoryObservation => .exploratoryObservation
  | .preregisteredSeedPass => .preregisteredSeedPass
  | .counterexampleFound => .counterexampleFound
  | .noCounterexampleWithinBoundN => .noCounterexampleWithinBoundN
  | .mutantKilled => .mutantKilled
  | .mutantSurvived => .mutantSurvived
  | .differentialEquivalentWithinVectorSet => .differentialEquivalentWithinVectorSet
  | .differentialDivergenceFound => .differentialDivergenceFound
  | .propertyCampaignPassN => .propertyCampaignPassN
  | .realProviderIntegrationPass => .realProviderIntegrationPass
  | .independentReplicationPass => .independentReplicationPass

/-- Why a run is exploratory. -/
inductive DowngradeReason
  | missingPersistedPreregistration
  | preregistrationPreparationFailed
  | callerSelectedExploratory

/-- What a run really used. -/
structure ActualExecutionAuthority where
  seedCatalogDigest : CanonicalDigest
  (comparisonProfileRevision randomSourceProfile : String)
  modelBound : Option Nat

/-- How a run is admitted. -/
inductive LabRunAdmission
  | prospective (preregistration : LabPreregistration) (receipt : ValidatedPreregistrationReceipt)
  | exploratory (revisionContext : LabRevisionContext) (seedIdentities : List LabSeedIdentity)
      (assumptions : OrderedSet String) (downgradeReason : DowngradeReason)

/-- Whether a run was preregistered. -/
inductive ExecutionMode
  | prospective (receipt : PreregistrationReceiptProjection)
  | exploratory (downgradeReason : DowngradeReason)

/-- What a completed run says. -/
structure LabResultPayload where
  preregistrationDigest : Option CanonicalDigest
  revisionContext : LabRevisionContext
  executionMode : ExecutionMode
  resultClass : ResearchResultClass
  submittedEvidence : ResultEvidence
  seedIdentities : List LabSeedIdentity
  observationDigests : List CanonicalDigest
  metricSnapshot : MetricSnapshot
  actualExecutionAuthority : ActualExecutionAuthority
  assumptionsUsed : OrderedSet String
  boundUsed : Option Nat
  (startSequence endSequence : Nat)

structure CompletedLabRunIdentity where
  revisionContext : LabRevisionContext
  resultArtifactDigest : CanonicalDigest

structure CompletedLabRun where
  identity : CompletedLabRunIdentity
  payload : LabResultPayload

/-- `serde_json` and SHA-256 at the types that are digested. -/
structure LabCodec where
  preregistrationBytes : LabPreregistration → Except String Bytes
  observationBytes : LabObservation → Except String Bytes
  payloadBytes : LabResultPayload → Except String Bytes
  digestCanonicalBytes : Bytes → CanonicalDigest

def LabCodec.canonicalDigest (codec : LabCodec) (bytes : Except String Bytes) :
    Except LabError CanonicalDigest := do
  let canonicalBytes ← bytes.mapError LabError.canonicalSerialization
  return codec.digestCanonicalBytes canonicalBytes

structure LabRunBuilder where
  preregistrationDigest : Option CanonicalDigest
  revisionContext : LabRevisionContext
  executionMode : ExecutionMode
  seedIdentities : List LabSeedIdentity
  declaredMetrics : Option (OrderedSet LabMetricKind)
  observations : List LabObservation
  observationDigests : List CanonicalDigest
  lastObservationSequence : Option Nat
  actualExecutionAuthority : ActualExecutionAuthority
  assumptionsUsed : OrderedSet String
  boundUsed : Option Nat
  providerCampaignKind : Option ProviderCampaignKind
  finalized : Bool

variable (codec : LabCodec)

def LabPreregistration.prepare (preregistration : LabPreregistration) :
    Except LabError PreparedPreregistration := do
  preregistration.revisionContext.validate
  preregistration.seedIdentities.forM LabSeedIdentity.validate
  let canonicalBytes ← (codec.preregistrationBytes preregistration).mapError
    LabError.canonicalSerialization
  return { canonicalBytes, digest := codec.digestCanonicalBytes canonicalBytes }

def validateActualAuthority (preregistration : LabPreregistration)
    (actual : ActualExecutionAuthority) : Except LabError Unit := do
  rejectIf (actual.seedCatalogDigest ≠ preregistration.seedCatalogDigest)
    (.prospectiveAuthorityDrift "seed_catalog_digest")
  rejectIf (actual.comparisonProfileRevision ≠
      preregistration.revisionContext.comparisonProfileRevision)
    (.prospectiveAuthorityDrift "comparison_profile_revision")
  rejectIf (actual.randomSourceProfile ≠ preregistration.revisionContext.randomSourceProfile)
    (.prospectiveAuthorityDrift "random_source_profile")
  rejectIf (actual.modelBound ≠ preregistration.modelBound)
    (.prospectiveAuthorityDrift "model_bound")

namespace LabRunBuilder

def start (admission : LabRunAdmission) (actual : ActualExecutionAuthority) :
    Except LabError LabRunBuilder :=
  match admission with
  | .prospective preregistration receipt => do
      let prepared ← preregistration.prepare codec
      rejectIf (receipt.digest ≠ prepared.digest)
        (.prospectiveAuthorityDrift "preregistration_digest")
      let startSequence := preregistration.revisionContext.startSequence
      rejectIf (startSequence ≤ receipt.logicalSequence)
        (.preregistrationNotPersistedBeforeStart receipt.logicalSequence startSequence)
      validateActualAuthority preregistration actual
      return {
        preregistrationDigest := some prepared.digest
        revisionContext := preregistration.revisionContext
        executionMode := .prospective receipt.projection
        seedIdentities := preregistration.seedIdentities
        declaredMetrics := some preregistration.declaredMetrics
        observations := []
        observationDigests := []
        lastObservationSequence := none
        actualExecutionAuthority := actual
        assumptionsUsed := preregistration.assumptions
        boundUsed := preregistration.modelBound
        providerCampaignKind := none
        finalized := false }
  | .exploratory revisionContext seedIdentities assumptions downgradeReason => do
      revisionContext.validate
      seedIdentities.forM LabSeedIdentity.validate
      return {
        preregistrationDigest := none
        revisionContext
        executionMode := .exploratory downgradeReason
        seedIdentities
        declaredMetrics := none
        observations := []
        observationDigests := []
        lastObservationSequence := none
        actualExecutionAuthority := actual
        assumptionsUsed := assumptions
        boundUsed := none
        providerCampaignKind := none
        finalized := false }

def startProviderCampaign (campaign : ProviderCampaignKind) (admission : LabRunAdmission)
    (actual : ActualExecutionAuthority) : Except LabError LabRunBuilder :=
  match admission with
  | .prospective preregistration _ => do
      validateProviderCampaignLayer campaign preregistration.campaignLayer
      let builder ← start codec admission actual
      return { builder with providerCampaignKind := some campaign }
  | .exploratory .. => .error .providerCampaignRequiresProspectiveAdmission

variable (b : LabRunBuilder)

section
variable (observation : LabObservation)

def checkMonotonic : Except LabError Unit :=
  match b.lastObservationSequence with
  | none => .ok ()
  | some previousSequence =>
      rejectIf (observation.logicalSequence ≤ previousSequence)
        (.observationSequenceNotMonotonic previousSequence observation.logicalSequence)

def checkDeclared : Except LabError Unit :=
  match b.declaredMetrics with
  | none => .ok ()
  | some declaredMetrics =>
      match observation.eligibleMetrics.toList.find? fun metric => !declaredMetrics.contains metric with
      | none => .ok ()
      | some metric => .error (.observationUsesUndeclaredMetric metric)

def checkProspective : Except LabError Unit :=
  match b.executionMode with
  | .exploratory _ => .ok ()
  | .prospective _ => do
      rejectIf (observation.providerBacked = true ∧ b.revisionContext.platformProfile.isNone)
        .providerBackedObservationRequiresPlatformProfile
      b.checkDeclared observation

/-- The checks of `append_observation`: the observation's digest. -/
def admitObservation : Except LabError CanonicalDigest := do
  rejectIf (b.finalized = true) .alreadyFinalized
  rejectIf (observation.comparisonProfileRevision ≠
      b.actualExecutionAuthority.comparisonProfileRevision)
    (.observationAuthorityDrift "comparison_profile_revision")
  let startSequence := b.revisionContext.startSequence
  rejectIf (observation.logicalSequence ≤ startSequence)
    (.observationSequenceNotAfterStart observation.logicalSequence startSequence)
  b.checkMonotonic observation
  b.checkProspective observation
  codec.canonicalDigest (codec.observationBytes observation)

def appendObservation : Except LabError Unit × LabRunBuilder :=
  match b.admitObservation codec observation with
  | .error e => (.error e, b)
  | .ok digest =>
      (.ok (),
        { b with
          lastObservationSequence := some observation.logicalSequence
          observations := b.observations ++ [observation]
          observationDigests := b.observationDigests ++ [digest] })

end

/-- One observation of `validate_real_provider_pass`: the seeds observed. -/
def observeSeed (preregistered observed : OrderedSet String) (observation : LabObservation) :
    Except LabError (OrderedSet String) := do
  let seedId ← okOr observation.seedId
    (.invalidRealProviderPass "real_provider_pass_requires_seed_bound_observations")
  rejectIf (preregistered.contains seedId = false)
    (.invalidRealProviderPass "real_provider_pass_rejects_unregistered_seed_observations")
  return observed.insert seedId

def validateRealProviderPass (snapshot : MetricSnapshot) : Except LabError Unit := do
  rejectIf (b.providerCampaignKind ≠ some .realProviderSeedApplications)
    (.invalidRealProviderPass "real_provider_pass_requires_typed_l7_campaign_admission")
  rejectIf (b.revisionContext.platformProfile.isNone)
    (.invalidRealProviderPass "real_provider_pass_requires_platform_profile")
  let preregistered := ofList (b.seedIdentities.map (·.seedId))
  let observed ← b.observations.foldlM (observeSeed preregistered) empty
  rejectIf (preregistered.toList.any (fun seedId => !observed.contains seedId) = true)
    (.invalidRealProviderPass "real_provider_pass_requires_all_preregistered_seeds")
  let rpomr := snapshot.get .rpomr
  rejectIf (rpomr.status ≠ .measured ∨ rpomr.denominator = 0)
    (.invalidRealProviderPass "real_provider_pass_requires_measured_rpomr")
  rejectIf (rpomr.numerator ≠ 0)
    (.invalidRealProviderPass "real_provider_pass_requires_zero_rpomr_mismatches")
  rejectIf (b.observations.any (fun o => !o.providerBacked || !o.eligibleMetrics.contains .rpomr) = true)
    (.invalidRealProviderPass "real_provider_pass_requires_provider_backed_rpomr_observations")
  rejectIf (b.observations.any (fun o => !o.failureFlags.toList.isEmpty) = true)
    (.invalidRealProviderPass "real_provider_pass_requires_failure_free_observations")

/-- What `finalize` asks of its evidence. -/
def checkEvidence (evidence : ResultEvidence) (snapshot : MetricSnapshot) : Except LabError Unit :=
  if evidence = .realProviderIntegrationPass then b.validateRealProviderPass snapshot else .ok ()

/-- The artifact of `finalize`. -/
def complete (evidence : ResultEvidence) (endSequence : Nat) : Except LabError CompletedLabRun := do
  rejectIf (b.finalized = true) .alreadyFinalized
  let metricSnapshot ← reduceMetricObservations b.observations
  b.checkEvidence evidence metricSnapshot
  let resultClass := match b.executionMode with
    | .prospective _ => evidence.resultClass
    | .exploratory _ => .exploratoryObservation
  let payload : LabResultPayload :=
    { preregistrationDigest := b.preregistrationDigest, revisionContext := b.revisionContext
      executionMode := b.executionMode, resultClass, submittedEvidence := evidence
      seedIdentities := b.seedIdentities, observationDigests := b.observationDigests, metricSnapshot
      actualExecutionAuthority := b.actualExecutionAuthority, assumptionsUsed := b.assumptionsUsed
      boundUsed := b.boundUsed, startSequence := b.revisionContext.startSequence, endSequence }
  let resultArtifactDigest ← codec.canonicalDigest (codec.payloadBytes payload)
  return { identity := { revisionContext := b.revisionContext, resultArtifactDigest }, payload }

def finalize (evidence : ResultEvidence) (endSequence : Nat) :
    Except LabError CompletedLabRun × LabRunBuilder :=
  match b.complete codec evidence endSequence with
  | .error e => (.error e, b)
  | .ok run => (.ok run, { b with finalized := true })

end LabRunBuilder

/-! ## Runs of the builder -/

/-- A call of the builder and its result. -/
inductive LabRunEvent
  | appended (observation : LabObservation) (result : Except LabError Unit)
  | finalized (evidence : ResultEvidence) (endSequence : Nat)
      (result : Except LabError CompletedLabRun)

/-- One call of the builder. -/
inductive LabRunStep : LabRunBuilder → LabRunEvent → LabRunBuilder → Prop
  | append (b : LabRunBuilder) (observation : LabObservation) :
      LabRunStep b (.appended observation (b.appendObservation codec observation).1)
        (b.appendObservation codec observation).2
  | finalize (b : LabRunBuilder) (evidence : ResultEvidence) (endSequence : Nat) :
      LabRunStep b (.finalized evidence endSequence (b.finalize codec evidence endSequence).1)
        (b.finalize codec evidence endSequence).2

open LabRunBuilder

def Admitted (admission : LabRunAdmission) (b : LabRunBuilder) : Prop :=
  ∃ actual, start codec admission actual = .ok b ∨
    ∃ campaign, startProviderCampaign codec campaign admission actual = .ok b

/-- The observation that an event takes in. -/
def LabRunEvent.accepted? : LabRunEvent → Option LabObservation
  | .appended observation (.ok ()) => some observation
  | _ => none

open LabRunEvent

/-- The observations taken in, in their order. -/
def accepted (tr : List LabRunEvent) : List LabObservation := tr.filterMap accepted?

def LabRunEvent.completes : LabRunEvent → Bool
  | .finalized _ _ (.ok _) => true
  | _ => false

/-- What the admission makes of a builder, and what stays of it. -/
def Holds : LabRunAdmission → LabRunBuilder → Prop
  | .prospective preregistration receipt, b =>
      b.executionMode = .prospective receipt.projection ∧
        b.revisionContext = preregistration.revisionContext ∧
        receipt.logicalSequence < b.revisionContext.startSequence ∧
        b.seedIdentities = preregistration.seedIdentities ∧
        b.declaredMetrics = some preregistration.declaredMetrics
  | .exploratory _ seedIdentities _ downgradeReason, b =>
      b.executionMode = .exploratory downgradeReason ∧ b.seedIdentities = seedIdentities

/-- What a builder holds is what its events took in, in order. -/
structure Consistent (admission : LabRunAdmission) (tr : List LabRunEvent) (b : LabRunBuilder) :
    Prop where
  admitted : Holds admission b
  observations : b.observations = accepted tr
  digests : List.Forall₂ (fun o d => codec.canonicalDigest (codec.observationBytes o) = .ok d)
    (accepted tr) b.observationDigests
  last : b.lastObservationSequence = (accepted tr).getLast?.map (·.logicalSequence)
  increasing : ((accepted tr).map (·.logicalSequence)).Pairwise (· < ·)
  after_start : ∀ o ∈ accepted tr, b.revisionContext.startSequence < o.logicalSequence
  declared : ∀ preregistration receipt, admission = .prospective preregistration receipt →
    ∀ o ∈ accepted tr, ∀ m ∈ o.eligibleMetrics.toList, m ∈ preregistration.declaredMetrics.toList
  finalized : tr.countP completes = b.finalized.toNat

variable {codec} {admission : LabRunAdmission} {b b' b₀ : LabRunBuilder} {tr : List LabRunEvent}
  {e : LabRunEvent} {o : LabObservation} {digest : CanonicalDigest}

theorem accepted_snoc : accepted (tr ++ [e]) = accepted tr ++ e.accepted?.toList := by
  rw [accepted, filterMap_append, accepted, filterMap_cons]
  cases e.accepted? <;> rfl

theorem holds_start {actual : ActualExecutionAuthority}
    (h : start codec admission actual = .ok b) :
    Holds admission b ∧ b.observations = [] ∧ b.observationDigests = [] ∧
      b.lastObservationSequence = none ∧ b.finalized = false := by
  cases admission with
  | prospective preregistration receipt =>
    obtain ⟨prepared, -, h⟩ := bind_eq_ok.mp h
    rw [rejectIf_bind_eq_ok] at h
    obtain ⟨-, h⟩ := h
    rw [rejectIf_bind_eq_ok] at h
    obtain ⟨hsequence, h⟩ := h
    obtain ⟨-, -, h⟩ := bind_eq_ok.mp h
    cases h
    exact ⟨⟨rfl, rfl, Nat.not_le.mp hsequence, rfl, rfl⟩, rfl, rfl, rfl, rfl⟩
  | exploratory revisionContext seedIdentities assumptions downgradeReason =>
    obtain ⟨-, -, h⟩ := bind_eq_ok.mp h
    obtain ⟨-, -, h⟩ := bind_eq_ok.mp h
    cases h
    exact ⟨⟨rfl, rfl⟩, rfl, rfl, rfl, rfl⟩

theorem holds_congr (h : Holds admission b) (hmode : b'.executionMode = b.executionMode)
    (hcontext : b'.revisionContext = b.revisionContext)
    (hseeds : b'.seedIdentities = b.seedIdentities)
    (hmetrics : b'.declaredMetrics = b.declaredMetrics) : Holds admission b' := by
  cases admission with
  | prospective preregistration receipt =>
    obtain ⟨h₁, h₂, h₃, h₄, h₅⟩ := h
    exact ⟨hmode.trans h₁, hcontext.trans h₂, hcontext ▸ h₃, hseeds.trans h₄, hmetrics.trans h₅⟩
  | exploratory => exact ⟨hmode.trans h.1, hseeds.trans h.2⟩

theorem startProviderCampaign_ok {campaign : ProviderCampaignKind}
    {actual : ActualExecutionAuthority}
    (h : startProviderCampaign codec campaign admission actual = .ok b) :
    ∃ b₁, start codec admission actual = .ok b₁ ∧
      b = { b₁ with providerCampaignKind := some campaign } := by
  unfold startProviderCampaign at h
  cases admission with
  | exploratory => cases h
  | prospective preregistration receipt =>
    obtain ⟨-, -, h⟩ := bind_eq_ok.mp h
    obtain ⟨b₁, hstart, heq⟩ := bind_eq_ok.mp h
    exact ⟨b₁, hstart, (Except.ok.inj heq).symm⟩

theorem consistent_start (h : Admitted codec admission b) : Consistent codec admission [] b := by
  have hstart : Holds admission b ∧ b.observations = [] ∧ b.observationDigests = [] ∧
      b.lastObservationSequence = none ∧ b.finalized = false := by
    obtain ⟨actual, hstart | ⟨campaign, hcampaign⟩⟩ := h
    · exact holds_start hstart
    · obtain ⟨b₁, hstart, rfl⟩ := startProviderCampaign_ok hcampaign
      obtain ⟨hadmitted, hrest⟩ := holds_start hstart
      exact ⟨holds_congr hadmitted rfl rfl rfl rfl, hrest⟩
  obtain ⟨hadmitted, hobservations, hdigests, hlast, hfinalized⟩ := hstart
  have hnone : ∀ o, o ∉ accepted [] := fun o ho => not_mem_nil ho
  refine ⟨hadmitted, hobservations, ?_, hlast, List.Pairwise.nil, fun o ho => absurd ho (hnone o),
    fun _ _ _ o ho => absurd ho (hnone o), ?_⟩
  · rw [hdigests]
    exact .nil
  · rw [hfinalized]
    rfl

/-- What an admitted observation has passed. -/
theorem admitObservation_ok (h : b.admitObservation codec o = .ok digest) :
    b.finalized = false ∧ b.revisionContext.startSequence < o.logicalSequence ∧
      (∀ previous ∈ b.lastObservationSequence, previous < o.logicalSequence) ∧
      (∀ receipt declared, b.executionMode = .prospective receipt →
        b.declaredMetrics = some declared →
          ∀ m ∈ o.eligibleMetrics.toList, m ∈ declared.toList) ∧
      codec.canonicalDigest (codec.observationBytes o) = .ok digest := by
  unfold admitObservation at h
  rw [rejectIf_bind_eq_ok] at h
  obtain ⟨hfinalized, h⟩ := h
  rw [rejectIf_bind_eq_ok] at h
  obtain ⟨-, h⟩ := h
  rw [rejectIf_bind_eq_ok] at h
  obtain ⟨hstart, h⟩ := h
  obtain ⟨⟨⟩, hprevious, h⟩ := bind_eq_ok.mp h
  obtain ⟨⟨⟩, hmetrics, h⟩ := bind_eq_ok.mp h
  refine ⟨by simpa using hfinalized, Nat.not_le.mp hstart, ?_, ?_, h⟩
  · intro previous hlast
    unfold checkMonotonic at hprevious
    rw [show b.lastObservationSequence = some previous from hlast] at hprevious
    exact Nat.not_le.mp (rejectIf_eq_ok.mp hprevious)
  · intro receipt declared hmode hdeclared m hm
    unfold checkProspective at hmetrics
    rw [hmode] at hmetrics
    obtain ⟨-, hmetrics⟩ := rejectIf_bind_eq_ok.mp hmetrics
    unfold checkDeclared at hmetrics
    rw [hdeclared] at hmetrics
    cases hfind : o.eligibleMetrics.toList.find? fun m => !declared.contains m with
    | some metric => simp [hfind] at hmetrics
    | none =>
      have hall := find?_eq_none.mp hfind m hm
      rw [Bool.not_eq_true, Bool.not_eq_false', OrderedSet.contains_iff] at hall
      exact hall

/-- A refused observation leaves the builder as it is. -/
theorem append_refused {error : LabError} (hs : LabRunStep codec b (.appended o (.error error)) b') :
    b' = b := by
  generalize hevent : appended o (.error error) = event at hs
  cases hs with
  | finalize => cases hevent
  | append =>
    obtain ⟨rfl, hresult⟩ := appended.inj hevent
    unfold appendObservation at hresult ⊢
    cases hadmitted : b.admitObservation codec o with
    | error e => rfl
    | ok digest => simp [hadmitted] at hresult

/-- What a completed run is made of. -/
theorem complete_ok {evidence : ResultEvidence} {endSequence : Nat} {run : CompletedLabRun}
    (h : b.complete codec evidence endSequence = .ok run) :
    b.finalized = false ∧
      reduceMetricObservations b.observations = .ok run.payload.metricSnapshot ∧
      (evidence = .realProviderIntegrationPass →
        b.validateRealProviderPass run.payload.metricSnapshot = .ok ()) ∧
      run.payload.executionMode = b.executionMode ∧
      run.payload.startSequence = b.revisionContext.startSequence ∧
      run.payload.endSequence = endSequence ∧
      run.payload.observationDigests = b.observationDigests ∧
      run.payload.resultClass = match b.executionMode with
        | .prospective _ => evidence.resultClass
        | .exploratory _ => .exploratoryObservation := by
  unfold complete at h
  rw [rejectIf_bind_eq_ok] at h
  obtain ⟨hfinalized, h⟩ := h
  obtain ⟨snapshot, hsnapshot, h⟩ := bind_eq_ok.mp h
  obtain ⟨⟨⟩, hpass, h⟩ := bind_eq_ok.mp h
  obtain ⟨resultArtifactDigest, -, h⟩ := bind_eq_ok.mp h
  cases h
  refine ⟨by simpa using hfinalized, hsnapshot, fun hevidence => ?_, rfl, rfl, rfl, rfl, rfl⟩
  unfold checkEvidence at hpass
  rw [if_pos hevidence] at hpass
  exact hpass

/-- **One call.** -/
theorem consistent_step (h : Consistent codec admission tr b) (hs : LabRunStep codec b e b') :
    Consistent codec admission (tr ++ [e]) b' := by
  have hkept : ∀ finalized, e.accepted? = none →
      b.finalized.toNat + e.completes.toNat = finalized.toNat →
      Consistent codec admission (tr ++ [e]) { b with finalized } := by
    intro finalized haccepted hfinalized
    have hsame : accepted (tr ++ [e]) = accepted tr := by
      rw [accepted_snoc, haccepted, Option.toList_none, append_nil]
    refine ⟨holds_congr h.admitted rfl rfl rfl rfl, ?_, ?_, ?_, ?_, ?_, ?_, ?_⟩
    · rw [hsame]
      exact h.observations
    · rw [hsame]
      exact h.digests
    · rw [hsame]
      exact h.last
    · rw [hsame]
      exact h.increasing
    · rw [hsame]
      exact h.after_start
    · rw [hsame]
      exact h.declared
    · rw [countP_append, h.finalized, ← hfinalized, countP_singleton]
      cases e.completes <;> rfl
  cases hs with
  | append o =>
    unfold appendObservation at hkept ⊢
    cases hadmitted : b.admitObservation codec o with
    | error error =>
      rw [hadmitted] at hkept
      exact hkept b.finalized rfl rfl
    | ok digest =>
      obtain ⟨-, hstart, hprevious, hmetrics, hdigest⟩ := admitObservation_ok hadmitted
      have hnew : accepted (tr ++ [.appended o (.ok ())]) = accepted tr ++ [o] := accepted_snoc
      refine ⟨holds_congr h.admitted rfl rfl rfl rfl, ?_, ?_, ?_, ?_, ?_, ?_, ?_⟩
      · rw [hnew, ← h.observations]
      · rw [hnew]
        exact rel_append h.digests (.cons hdigest .nil)
      · rw [hnew, getLast?_concat]
        rfl
      · rw [hnew, map_append, pairwise_append]
        refine ⟨h.increasing, pairwise_singleton _ _, ?_⟩
        intro sequence hsequence sequence' hlast
        obtain rfl := mem_singleton.mp hlast
        -- the last sequence is the greatest so far
        rcases eq_nil_or_concat (accepted tr) with hnil | ⟨earlier, last, hconcat⟩
        · rw [hnil] at hsequence
          cases hsequence
        · have hgreater : last.logicalSequence < o.logicalSequence := by
            refine hprevious _ ?_
            rw [h.last, hconcat, concat_eq_append, getLast?_concat]
            rfl
          have hincreasing := h.increasing
          rw [hconcat, concat_eq_append, map_append] at hsequence hincreasing
          rcases mem_append.mp hsequence with hin | hin
          · have hlt := (pairwise_append.mp hincreasing).2.2 _ hin _ (mem_singleton.mpr rfl)
            exact Nat.lt_trans hlt hgreater
          · rw [mem_singleton.mp hin]
            exact hgreater
      · intro o' ho'
        rw [hnew] at ho'
        rcases mem_append.mp ho' with ho' | ho'
        · exact h.after_start o' ho'
        · rw [mem_singleton.mp ho']
          exact hstart
      · intro preregistration receipt hadmission o' ho' m hm
        rw [hnew] at ho'
        rcases mem_append.mp ho' with ho' | ho'
        · exact h.declared _ _ hadmission o' ho' m hm
        · rw [mem_singleton.mp ho'] at hm
          have hheld := h.admitted
          rw [hadmission] at hheld
          exact hmetrics _ _ hheld.1 hheld.2.2.2.2 m hm
      · rw [countP_append, h.finalized]
        rfl
  | finalize evidence endSequence =>
    unfold finalize at hkept ⊢
    cases hcomplete : b.complete codec evidence endSequence with
    | error error =>
      rw [hcomplete] at hkept
      exact hkept b.finalized rfl rfl
    | ok run =>
      rw [hcomplete] at hkept
      exact hkept true rfl (by rw [(complete_ok hcomplete).1]; rfl)

theorem consistent_run (h : Admitted codec admission b₀) (hrun : Run (LabRunStep codec) b₀ tr b) :
    Consistent codec admission tr b :=
  Run.forward_induction (P := Consistent codec admission) (consistent_start h)
    (fun _ _ _ _ _ ih hs => consistent_step ih hs) hrun

/-- What a real provider pass rests on. -/
structure RealProviderEvidence (seedIdentities : List LabSeedIdentity)
    (observations : List LabObservation) (snapshot : MetricSnapshot) : Prop where
  backed : ∀ o ∈ observations, o.providerBacked = true
  clean : ∀ o ∈ observations, o.failureFlags.toList = []
  bound : ∀ o ∈ observations, ∃ seed ∈ seedIdentities, o.seedId = some seed.seedId
  covered : ∀ seed ∈ seedIdentities, ∃ o ∈ observations, o.seedId = some seed.seedId
  measured : (snapshot.get .rpomr).status = .measured
  matching : (snapshot.get .rpomr).numerator = 0
  positive : 0 < (snapshot.get .rpomr).denominator
  counted : (snapshot.get .rpomr).denominator = observations.length

theorem observeSeeds_ok {preregistered observed observed' : OrderedSet String}
    (observations : List LabObservation)
    (h : observations.foldlM (observeSeed preregistered) observed = .ok observed') :
    (∀ o ∈ observations, ∃ seedId ∈ preregistered.toList, o.seedId = some seedId) ∧
      ∀ seedId, seedId ∈ observed'.toList ↔
        seedId ∈ observed.toList ∨ ∃ o ∈ observations, o.seedId = some seedId := by
  induction observations generalizing observed with
  | nil =>
    cases h
    simp
  | cons o observations ih =>
    obtain ⟨observed₁, hone, hrest⟩ := bind_eq_ok.mp h
    unfold observeSeed at hone
    rw [okOr_bind_eq_ok] at hone
    obtain ⟨seedId, hseed, hone⟩ := hone
    rw [rejectIf_bind_eq_ok] at hone
    obtain ⟨hregistered, hone⟩ := hone
    rw [Bool.not_eq_false, OrderedSet.contains_iff] at hregistered
    cases hone
    obtain ⟨hbound, hobserved⟩ := ih hrest
    constructor
    · intro o' ho'
      rcases mem_cons.mp ho' with rfl | ho'
      · exact ⟨seedId, hregistered, hseed⟩
      · exact hbound o' ho'
    · intro seedId'
      rw [hobserved, mem_insert, exists_mem_cons_iff, hseed, Option.some.injEq]
      constructor
      · rintro ((rfl | hin) | hex)
        · exact .inr (.inl rfl)
        · exact .inl hin
        · exact .inr (.inr hex)
      · rintro (hin | rfl | hex)
        · exact .inl (.inr hin)
        · exact .inl (.inl rfl)
        · exact .inr hex

theorem validateRealProviderPass_ok {snapshot : MetricSnapshot}
    (hsnapshot : reduceMetricObservations b.observations = .ok snapshot)
    (h : b.validateRealProviderPass snapshot = .ok ()) :
    RealProviderEvidence b.seedIdentities b.observations snapshot := by
  unfold validateRealProviderPass at h
  rw [rejectIf_bind_eq_ok] at h
  obtain ⟨-, h⟩ := h
  rw [rejectIf_bind_eq_ok] at h
  obtain ⟨-, h⟩ := h
  obtain ⟨observed, hseeds, h⟩ := bind_eq_ok.mp h
  simp only [rejectIf_bind_eq_ok, rejectIf_eq_ok, List.any_eq_true, not_exists, not_and,
    Bool.not_eq_true', Bool.or_eq_true, not_or, Bool.not_eq_false, OrderedSet.contains_iff,
    List.isEmpty_iff, ne_eq, not_not] at h
  obtain ⟨hcovered, ⟨hstatus, hdenominator⟩, hnumerator, hbacked, hclean⟩ := h
  obtain ⟨hbound, hobserved⟩ := observeSeeds_ok _ hseeds
  refine ⟨fun o ho => (hbacked o ho).1, hclean, ?_, ?_, hstatus, hnumerator,
    Nat.pos_of_ne_zero hdenominator, ?_⟩
  · intro o ho
    obtain ⟨seedId, hregistered, hseed⟩ := hbound o ho
    obtain ⟨seed, hin, rfl⟩ := List.mem_map.mp (mem_ofList.mp hregistered)
    exact ⟨seed, hin, hseed⟩
  · intro seed hin
    have hregistered : seed.seedId ∈ (ofList (b.seedIdentities.map (·.seedId))).toList :=
      mem_ofList.mpr (List.mem_map.mpr ⟨seed, hin, rfl⟩)
    simpa using (hobserved seed.seedId).mp (hcovered _ hregistered)
  · rw [(reduceMetricObservations_ok hsnapshot .rpomr).2.2.1, eligible, List.countP_eq_length]
    intro o ho
    exact OrderedSet.contains_iff.mpr (hbacked o ho).2

/-! ## The laws of a run -/

/-- What a preregistered run keeps to. -/
structure ProspectiveLaws (codec : LabCodec) (preregistration : LabPreregistration)
    (receipt : ValidatedPreregistrationReceipt) (observations : List LabObservation)
    (run : CompletedLabRun) : Prop where
  mode : run.payload.executionMode = .prospective receipt.projection
  digests : List.Forall₂ (fun o d => codec.canonicalDigest (codec.observationBytes o) = .ok d)
    observations run.payload.observationDigests
  receipt_before_start : receipt.logicalSequence < run.payload.startSequence
  increasing : (observations.map (·.logicalSequence)).Pairwise (· < ·)
  after_start : ∀ o ∈ observations, run.payload.startSequence < o.logicalSequence
  before_end : ∀ o ∈ observations, o.logicalSequence ≤ run.payload.endSequence
  declared : ∀ o ∈ observations, ∀ metric ∈ o.eligibleMetrics.toList,
    metric ∈ preregistration.declaredMetrics.toList

/-- What the calls of a builder are to be. -/
structure LabRunLaws (codec : LabCodec) (admission : LabRunAdmission) (b₀ : LabRunBuilder)
    (tr : List LabRunEvent) : Prop where
  once : tr.countP completes ≤ 1
  refused : ∀ before o error after b b', tr = before ++ .appended o (.error error) :: after →
    Run (LabRunStep codec) b₀ before b → LabRunStep codec b (.appended o (.error error)) b' → b' = b
  prospective : ∀ preregistration receipt before evidence endSequence run after,
    admission = .prospective preregistration receipt →
      tr = before ++ .finalized evidence endSequence (.ok run) :: after →
        ProspectiveLaws codec preregistration receipt (accepted before) run
  exploratory : ∀ context seedIdentities assumptions reason before evidence endSequence run after,
    admission = .exploratory context seedIdentities assumptions reason →
      tr = before ++ .finalized evidence endSequence (.ok run) :: after →
        run.payload.resultClass = .exploratoryObservation
  realProvider : ∀ before evidence endSequence run after,
    tr = before ++ .finalized evidence endSequence (.ok run) :: after →
      run.payload.resultClass = .realProviderIntegrationPass →
        ∃ preregistration receipt, admission = .prospective preregistration receipt ∧
          RealProviderEvidence preregistration.seedIdentities (accepted before)
            run.payload.metricSnapshot

/-- A prospective run is completed with an end that is not before its last observation. -/
def EndsInOrder (admission : LabRunAdmission) (tr : List LabRunEvent) : Prop :=
  ∀ preregistration receipt before evidence endSequence run after,
    admission = .prospective preregistration receipt →
      tr = before ++ .finalized evidence endSequence (.ok run) :: after →
        ∀ o ∈ (accepted before).getLast?, o.logicalSequence ≤ endSequence

/-- The builder that completed a run, and the artifact. -/
theorem completed_at {before after : List LabRunEvent} {evidence : ResultEvidence}
    {endSequence : Nat} {run : CompletedLabRun} (h : Admitted codec admission b₀)
    (hrun : Run (LabRunStep codec) b₀ (before ++ .finalized evidence endSequence (.ok run) :: after) b) :
    ∃ b₁, Consistent codec admission before b₁ ∧
      b₁.complete codec evidence endSequence = .ok run := by
  obtain ⟨b₁, b₂, hbefore, hs, -⟩ := hrun.step_of_split
  refine ⟨b₁, consistent_run h hbefore, ?_⟩
  generalize hevent : finalized evidence endSequence (.ok run) = event at hs
  cases hs with
  | append => cases hevent
  | finalize evidence' endSequence' =>
    obtain ⟨rfl, rfl, hresult⟩ := finalized.inj hevent
    unfold finalize at hresult
    cases hcomplete : b₁.complete codec evidence endSequence with
    | error error => simp [hcomplete] at hresult
    | ok run' =>
      rw [hcomplete] at hresult
      exact hresult.symm

/-- All but the end. -/
theorem prospectiveLaws_of_ends {evidence : ResultEvidence} {endSequence : Nat}
    {run : CompletedLabRun} {preregistration : LabPreregistration}
    {receipt : ValidatedPreregistrationReceipt}
    (h : Consistent codec (.prospective preregistration receipt) tr b)
    (hcomplete : b.complete codec evidence endSequence = .ok run)
    (hend : ∀ o ∈ (accepted tr).getLast?, o.logicalSequence ≤ endSequence) :
    ProspectiveLaws codec preregistration receipt (accepted tr) run := by
  obtain ⟨-, -, -, hmode, hstart, hendSequence, hdigests, -⟩ := complete_ok hcomplete
  obtain ⟨hprospective, -, hreceipt, -, -⟩ := h.admitted
  refine ⟨hmode.trans hprospective, hdigests ▸ h.digests, hstart ▸ hreceipt, h.increasing,
    hstart ▸ h.after_start, ?_, h.declared preregistration receipt rfl⟩
  rw [hendSequence]
  intro o ho
  have hincreasing := h.increasing
  rcases eq_nil_or_concat (accepted tr) with hnil | ⟨earlier, last, hconcat⟩
  · rw [hnil] at ho
    cases ho
  · rw [hconcat, concat_eq_append] at ho hincreasing hend
    have hle := hend last getLast?_concat
    rcases mem_append.mp ho with hin | hin
    · rw [map_append, pairwise_append] at hincreasing
      have hlt : o.logicalSequence < last.logicalSequence :=
        hincreasing.2.2 _ (mem_map_of_mem hin) _ (mem_singleton.mpr rfl)
      omega
    · rw [mem_singleton.mp hin]
      exact hle

/-- **The laws hold exactly if the end is in order**: everything else is checked, at the
admission, at each observation or at the end. -/
theorem lab_run_laws (h : Admitted codec admission b₀) (hrun : Run (LabRunStep codec) b₀ tr b) :
    LabRunLaws codec admission b₀ tr ↔ EndsInOrder admission tr := by
  constructor
  · rintro hlaws preregistration receipt before evidence endSequence run after hadmission rfl o ho
    have hrunLaws := hlaws.prospective _ _ _ _ _ _ _ hadmission rfl
    obtain ⟨b₁, -, hcomplete⟩ := completed_at h hrun
    have hle := hrunLaws.before_end o (mem_of_getLast? ho)
    rw [(complete_ok hcomplete).2.2.2.2.2.1] at hle
    exact hle
  · intro hends
    refine ⟨?_, fun before o error after b b' _ _ hs => append_refused hs, ?_, ?_, ?_⟩
    · rw [(consistent_run h hrun).finalized]
      cases b.finalized <;> decide
    · rintro preregistration receipt before evidence endSequence run after hadmission rfl
      obtain ⟨b₁, hconsistent, hcomplete⟩ := completed_at h hrun
      rw [hadmission] at hconsistent
      exact prospectiveLaws_of_ends hconsistent hcomplete (hends _ _ _ _ _ _ _ hadmission rfl)
    · rintro context seedIdentities assumptions reason before evidence endSequence run after hadmission rfl
      obtain ⟨b₁, hconsistent, hcomplete⟩ := completed_at h hrun
      obtain ⟨-, -, -, -, -, -, -, hclass⟩ := complete_ok hcomplete
      have hadmitted := hconsistent.admitted
      rw [hadmission] at hadmitted
      rw [hclass, hadmitted.1]
    · rintro before evidence endSequence run after rfl hpass
      obtain ⟨b₁, hconsistent, hcomplete⟩ := completed_at h hrun
      obtain ⟨-, hsnapshot, hevidence, -, -, -, -, hclass⟩ := complete_ok hcomplete
      have hadmitted := hconsistent.admitted
      cases admission with
      | exploratory context seedIdentities assumptions reason =>
        rw [hclass, hadmitted.1] at hpass
        cases hpass
      | prospective preregistration receipt =>
        obtain ⟨hmode, -, -, hseeds, -⟩ := hadmitted
        rw [hclass, hmode] at hpass
        have hreal : evidence = .realProviderIntegrationPass := by
          cases evidence <;> first | rfl | cases hpass
        refine ⟨preregistration, receipt, rfl, ?_⟩
        rw [← hseeds, ← hconsistent.observations]
        exact validateRealProviderPass_ok hsnapshot (hevidence hreal)

/-! ## A run that ends before it started -/

def sampleRevisionContext : LabRevisionContext :=
  { labRevision := "lab", seedCorpusRevision := "seeds", specRevisionDigest := "spec"
    referenceReducerRevision := "reducer", mutationCatalogRevision := "mutations"
    comparisonProfileRevision := "compare", randomSourceProfile := "random"
    platformProfile := none, startSequence := 20 }

def samplePreregistration : LabPreregistration :=
  { revisionContext := sampleRevisionContext, seedCatalogDigest := ⟨"catalog"⟩, seedIdentities := []
    campaignLayer := .l1, expectedDistinctions := empty, modelBound := none
    assumptions := empty, declaredMetrics := empty, creationSequence := 1 }

def sampleReceipt : ValidatedPreregistrationReceipt :=
  ⟨⟨"digest"⟩, 10, "ref", by decide, by decide⟩

def sampleAuthority : ActualExecutionAuthority := ⟨⟨"catalog"⟩, "compare", "random", none⟩

def sampleLabCodec : LabCodec :=
  ⟨fun _ => .ok [], fun _ => .ok [], fun _ => .ok [], fun _ => ⟨"digest"⟩⟩

def sampleLabObservation : LabObservation :=
  { observationId := "first", seedId := none, expectedOutcome := "a", observedOutcome := "a"
    principalExpected := none, principalDispatched := none, eligibleMetrics := empty
    failureFlags := empty, evidenceRefs := empty, providerBacked := false
    comparisonProfileRevision := "compare", logicalSequence := 21 }

/-- Admitted at 20. -/
def sampleBuilder : LabRunBuilder :=
  { preregistrationDigest := some ⟨"digest"⟩, revisionContext := sampleRevisionContext
    executionMode := .prospective sampleReceipt.projection, seedIdentities := []
    declaredMetrics := some empty, observations := [], observationDigests := []
    lastObservationSequence := none, actualExecutionAuthority := sampleAuthority
    assumptionsUsed := empty, boundUsed := none, providerCampaignKind := none
    finalized := false }

theorem sample_admitted :
    Admitted sampleLabCodec (.prospective samplePreregistration sampleReceipt) sampleBuilder :=
  ⟨sampleAuthority, .inl rfl⟩

/-- An observation at 21, and the end given. -/
def sampleLabEvents (endSequence : Nat) : List LabRunEvent :=
  [.appended sampleLabObservation (.ok ()),
    .finalized .preregisteredSeedPass endSequence
      ((sampleBuilder.appendObservation sampleLabCodec sampleLabObservation).2.finalize
        sampleLabCodec .preregisteredSeedPass endSequence).1]

theorem sample_lab_run (endSequence : Nat) :
    ∃ b, Run (LabRunStep sampleLabCodec) sampleBuilder (sampleLabEvents endSequence) b :=
  ⟨_, .cons (.append _ _) (.cons (.finalize _ _ _) (.nil _))⟩

/-- At 30 the run is in order. -/
theorem lab_run_laws_sample : LabRunLaws sampleLabCodec
    (.prospective samplePreregistration sampleReceipt) sampleBuilder (sampleLabEvents 30) := by
  obtain ⟨b, hrun⟩ := sample_lab_run 30
  refine (lab_run_laws sample_admitted hrun).mpr ?_
  intro preregistration receipt before evidence endSequence run after _ htr o ho
  have hend : endSequence = 30 := by
    have hmem : finalized evidence endSequence (.ok run) ∈ sampleLabEvents 30 := by
      rw [htr]
      exact mem_append_right _ mem_cons_self
    rcases mem_cons.mp hmem with heq | hmem
    · cases heq
    · exact (finalized.inj (mem_singleton.mp hmem)).2.1
  have hmem : o ∈ accepted (sampleLabEvents 30) := by
    rw [htr, accepted, filterMap_append]
    exact mem_append_left _ (mem_of_getLast? ho)
  have hone : o = sampleLabObservation := mem_singleton.mp hmem
  rw [hend, hone]
  decide

/-- At 0 it has an end before its start. -/
theorem end_before_observation : ¬ ∀ (codec : LabCodec) (admission : LabRunAdmission)
    (b₀ b : LabRunBuilder) (tr : List LabRunEvent), Admitted codec admission b₀ →
      Run (LabRunStep codec) b₀ tr b → LabRunLaws codec admission b₀ tr := by
  intro hall
  obtain ⟨b, hrun⟩ := sample_lab_run 0
  have hlaws := (hall _ _ _ _ _ sample_admitted hrun).prospective _ _
    [.appended sampleLabObservation (.ok ())] .preregisteredSeedPass 0 _ [] rfl rfl
  have hle := hlaws.before_end sampleLabObservation (mem_singleton.mpr rfl)
  exact absurd hle (by decide)

end Localview.ValidationLab
