import Localview.OrderedSet
import Localview.EarlyReturn
import Localview.Protocol
import Mathlib.Data.String.Basic

/-! # Metrics of a validation lab

How `reduce_metric_observations` counts: a metric's denominator is how many observations
are eligible for it, its numerator how many of them have its failure flag.
-/
namespace Localview.ValidationLab
open EarlyReturn List Function

/-- A digest in canonical spelling. -/
structure CanonicalDigest where
  value : String
  deriving DecidableEq

/-- The metrics of the lab, by their short names. -/
inductive LabMetricKind
  | suar | wpdr | pilr | eoffr | rmr | piaer | wfir | pdmr | scar | uobrr | msr | crdr | rpomr | cbfr
  deriving DecidableEq

/-- `LabMetricKind::ALL`, in the derived order. -/
def LabMetricKind.all : List LabMetricKind :=
  [.suar, .wpdr, .pilr, .eoffr, .rmr, .piaer, .wfir, .pdmr, .scar, .uobrr, .msr, .crdr, .rpomr,
    .cbfr]

theorem LabMetricKind.mem_all (kind : LabMetricKind) : kind ∈ all := by
  cases kind <;> decide

theorem LabMetricKind.nodup_all : all.Nodup := by decide

instance : LinearOrder LabMetricKind :=
  LinearOrder.lift' (fun kind => LabMetricKind.all.idxOf kind) fun a _ h =>
    (List.idxOf_inj (LabMetricKind.mem_all a)).mp h

/-- A failure an observation reports. -/
inductive LabFailureFlag
  | silentUnsoundAction
  | wrongPrincipalDispatch
  | principalInformationLeak
  | eventOnlyFalseFreshness
  | reconciliationMiss
  | providerIdAbaEscape
  | wrongForegroundInput
  | partialDispatchMisclassifiedSuccess
  | staleCacheAuthority
  | blindRetryAfterUnknown
  | mutationSurvived
  | crossReducerDivergence
  | realProviderOracleMismatch
  | cleanupToBaselineFailure

/-- The metric a flag counts against. -/
def LabFailureFlag.metric : LabFailureFlag → LabMetricKind
  | .silentUnsoundAction => .suar
  | .wrongPrincipalDispatch => .wpdr
  | .principalInformationLeak => .pilr
  | .eventOnlyFalseFreshness => .eoffr
  | .reconciliationMiss => .rmr
  | .providerIdAbaEscape => .piaer
  | .wrongForegroundInput => .wfir
  | .partialDispatchMisclassifiedSuccess => .pdmr
  | .staleCacheAuthority => .scar
  | .blindRetryAfterUnknown => .uobrr
  | .mutationSurvived => .msr
  | .crossReducerDivergence => .crdr
  | .realProviderOracleMismatch => .rpomr
  | .cleanupToBaselineFailure => .cbfr

theorem LabFailureFlag.metric_injective : Function.Injective metric := fun a b h => by
  cases a <;> cases b <;> first | rfl | cases h

open LabFailureFlag

/-- The flags stand in the order of their metrics. -/
instance : LinearOrder LabFailureFlag :=
  LinearOrder.lift' metric metric_injective

/-- What one probe of the lab saw. -/
structure LabObservation where
  observationId : String
  seedId : Option String
  (expectedOutcome observedOutcome : String)
  (principalExpected principalDispatched : Option String)
  eligibleMetrics : OrderedSet LabMetricKind
  failureFlags : OrderedSet LabFailureFlag
  evidenceRefs : OrderedSet String
  providerBacked : Bool
  comparisonProfileRevision : String
  logicalSequence : Nat

/-- The layer a campaign tests. -/
inductive CampaignLayer
  | l0 | l1 | l2 | l3 | l4 | l5 | l6 | l7 | l8 | l9
  deriving DecidableEq

/-- Whether the provider is real. -/
inductive ProviderCampaignKind
  | fakeProviderSimulator
  | realProviderSeedApplications
  deriving DecidableEq

/-- Why an observation or a run is refused. -/
inductive LabError
  | invalidMetricSubset (numerator denominator : Nat)
  | metricRateOverflow
  | metricCounterOverflow (kind : LabMetricKind) (counter : String)
  | failureFlagWithoutEligibility (flag : LabFailureFlag) (metric : LabMetricKind)
  | emptyAuthorityField (field : String)
  | providerCampaignLayerMismatch (campaign : ProviderCampaignKind) (expected actual : CampaignLayer)
  | providerCampaignRequiresProspectiveAdmission
  | invalidRealProviderPass (reason : String)
  | canonicalSerialization (message : String)
  | preregistrationPersistenceMismatch (expected actual : CanonicalDigest)
  | invalidPersistenceReceipt (reason : String)
  | preregistrationNotPersistedBeforeStart (receiptSequence startSequence : Nat)
  | prospectiveAuthorityDrift (field : String)
  | providerBackedObservationRequiresPlatformProfile
  | observationAuthorityDrift (field : String)
  | observationSequenceNotAfterStart (logicalSequence startSequence : Nat)
  | observationSequenceNotMonotonic (previousSequence logicalSequence : Nat)
  | observationUsesUndeclaredMetric (metric : LabMetricKind)
  | alreadyFinalized

/-- Whether a metric was measured at all. -/
inductive MetricStatus
  | measured
  | notMeasured
  deriving DecidableEq

/-- A metric over all observations. -/
structure LabMetricValue where
  kind : LabMetricKind
  (numerator denominator : Nat)
  status : MetricStatus
  ratePpb : Option Nat

/-- Rates are in parts per billion, rounded down. -/
def rateScalePpb : Nat := 1000000000

/-- A rate needs a denominator; without one nothing was measured. -/
def LabMetricValue.new (kind : LabMetricKind) (numerator denominator : Nat) :
    Except LabError LabMetricValue := do
  rejectIf (denominator < numerator) (.invalidMetricSubset numerator denominator)
  if denominator = 0 then
    return { kind, numerator, denominator, status := .notMeasured, ratePpb := none }
  else do
    let rate := numerator * rateScalePpb / denominator
    rejectIf (u64Max < rate) .metricRateOverflow
    return { kind, numerator, denominator, status := .measured, ratePpb := some rate }

/-- `MetricSnapshot`: every kind has a value, from `empty` on. -/
structure MetricSnapshot where
  values : LabMetricKind → LabMetricValue

/-- Nothing was measured. -/
def MetricSnapshot.empty : MetricSnapshot :=
  ⟨fun kind =>
    { kind, numerator := 0, denominator := 0, status := .notMeasured, ratePpb := none }⟩

/-- The value under a kind. -/
def MetricSnapshot.get (snapshot : MetricSnapshot) (kind : LabMetricKind) : LabMetricValue :=
  snapshot.values kind

/-- The value is kept under its own kind. -/
def MetricSnapshot.set (snapshot : MetricSnapshot) (value : LabMetricValue) : MetricSnapshot :=
  ⟨update snapshot.values value.kind value⟩

/-- How many of how many. -/
structure MetricCounter where
  (numerator denominator : Nat)

/-- A counter for each metric. -/
abbrev MetricCounters : Type := LabMetricKind → MetricCounter

/-- `checked_add(1)` -/
def checkedIncrement (n : Nat) (error : LabError) : Except LabError Nat :=
  if n + 1 ≤ u64Max then .ok (n + 1) else .error error

/-- One more observation that a metric applies to. -/
def countEligible (counters : MetricCounters) (metric : LabMetricKind) :
    Except LabError MetricCounters := do
  let denominator ← checkedIncrement (counters metric).denominator
    (.metricCounterOverflow metric "denominator")
  return update counters metric { counters metric with denominator }

/-- One more failure. -/
def countFlag (counters : MetricCounters) (flag : LabFailureFlag) :
    Except LabError MetricCounters := do
  let numerator ← checkedIncrement (counters flag.metric).numerator
    (.metricCounterOverflow flag.metric "numerator")
  return update counters flag.metric { counters flag.metric with numerator }

/-- An observation counts for what it is eligible for, then for its flags. -/
def countObservation (counters : MetricCounters) (observation : LabObservation) :
    Except LabError MetricCounters := do
  let counters ← observation.eligibleMetrics.toList.foldlM countEligible counters
  observation.failureFlags.toList.foldlM countFlag counters

/-- A flag needs an observation eligible for its metric. -/
def checkFlags (observation : LabObservation) : Except LabError Unit :=
  observation.failureFlags.toList.forM fun flag =>
    rejectIf (observation.eligibleMetrics.contains flag.metric = false)
      (.failureFlagWithoutEligibility flag flag.metric)

/-- The value of one metric, from its counter. -/
def setMetric (counters : MetricCounters) (snapshot : MetricSnapshot) (kind : LabMetricKind) :
    Except LabError MetricSnapshot := do
  let value ← LabMetricValue.new kind (counters kind).numerator (counters kind).denominator
  return snapshot.set value

/-- The metrics of the observations. -/
def reduceMetricObservations (observations : List LabObservation) :
    Except LabError MetricSnapshot := do
  observations.forM checkFlags
  let counters ← observations.foldlM countObservation fun _ => ⟨0, 0⟩
  LabMetricKind.all.foldlM (setMetric counters) .empty

/-! ## What is counted -/

section
variable {counters counters' : MetricCounters} {snapshot snapshot' : MetricSnapshot}
  {kind : LabMetricKind} {n m : Nat}

/-- How many observations a metric applies to. -/
def eligible (observations : List LabObservation) (kind : LabMetricKind) : Nat :=
  observations.countP fun o => o.eligibleMetrics.contains kind

/-- How many observations fail a metric. -/
def flagged (observations : List LabObservation) (kind : LabMetricKind) : Nat :=
  observations.countP fun o => decide (kind ∈ o.failureFlags.toList.map metric)

theorem checkedIncrement_ok {e : LabError} : checkedIncrement n e = .ok m ↔ n + 1 ≤ u64Max ∧ m = n + 1 := by
  unfold checkedIncrement
  by_cases h : n + 1 ≤ u64Max
  · rw [if_pos h, Except.ok.injEq]
    exact ⟨fun heq => ⟨h, heq.symm⟩, fun hm => hm.2.symm⟩
  · rw [if_neg h]
    exact ⟨nofun, fun hm => absurd hm.1 h⟩

theorem countEligible_ok {metric : LabMetricKind} (h : countEligible counters metric = .ok counters') :
    counters' kind = ⟨(counters kind).numerator,
      (counters kind).denominator + if metric = kind then 1 else 0⟩ := by
  obtain ⟨denominator, hadd, heq⟩ := bind_eq_ok.mp h
  obtain ⟨-, rfl⟩ := checkedIncrement_ok.mp hadd
  cases heq
  by_cases hkind : metric = kind
  · subst hkind
    simp
  · simp [update_of_ne (Ne.symm hkind), hkind]

theorem countFlag_ok {flag : LabFailureFlag} (h : countFlag counters flag = .ok counters') :
    counters' kind = ⟨(counters kind).numerator + if flag.metric = kind then 1 else 0,
      (counters kind).denominator⟩ := by
  obtain ⟨numerator, hadd, heq⟩ := bind_eq_ok.mp h
  obtain ⟨-, rfl⟩ := checkedIncrement_ok.mp hadd
  cases heq
  by_cases hkind : flag.metric = kind
  · subst hkind
    simp
  · simp [update_of_ne (Ne.symm hkind), hkind]

theorem countEligibles_ok (metrics : List LabMetricKind)
    (h : metrics.foldlM countEligible counters = .ok counters') :
    counters' kind = ⟨(counters kind).numerator, (counters kind).denominator + metrics.count kind⟩ := by
  induction metrics generalizing counters with
  | nil =>
    cases h
    rfl
  | cons metric metrics ih =>
    obtain ⟨counters₁, hone, hrest⟩ := bind_eq_ok.mp h
    rw [ih hrest, countEligible_ok hone, count_cons]
    simp only [beq_iff_eq, MetricCounter.mk.injEq, true_and]
    omega

theorem countFlags_ok (flags : List LabFailureFlag)
    (h : flags.foldlM countFlag counters = .ok counters') :
    counters' kind = ⟨(counters kind).numerator + (flags.map metric).count kind,
      (counters kind).denominator⟩ := by
  induction flags generalizing counters with
  | nil =>
    cases h
    rfl
  | cons flag flags ih =>
    obtain ⟨counters₁, hone, hrest⟩ := bind_eq_ok.mp h
    rw [ih hrest, countFlag_ok hone, map_cons, count_cons]
    simp only [beq_iff_eq, MetricCounter.mk.injEq, and_true]
    omega

/-- An observation counts once for a metric. -/
theorem countObservation_ok {o : LabObservation} (h : countObservation counters o = .ok counters') :
    counters' kind = ⟨(counters kind).numerator + flagged [o] kind,
      (counters kind).denominator + eligible [o] kind⟩ := by
  obtain ⟨counters₁, hmetrics, hflags⟩ := bind_eq_ok.mp h
  rw [countFlags_ok _ hflags, countEligibles_ok _ hmetrics]
  have hmetrics : o.eligibleMetrics.toList.count kind = eligible [o] kind := by
    have hnodup := o.eligibleMetrics.sorted_toList.imp fun h => ne_of_lt h
    rw [eligible, countP_singleton]
    by_cases hmem : kind ∈ o.eligibleMetrics.toList
    · rw [count_eq_one_of_mem hnodup hmem, if_pos (OrderedSet.contains_iff.mpr hmem)]
    · rw [count_eq_zero_of_not_mem hmem, if_neg (mt OrderedSet.contains_iff.mp hmem)]
  have hflags : (o.failureFlags.toList.map metric).count kind = flagged [o] kind := by
    have hnodup := List.Nodup.map metric_injective
      (o.failureFlags.sorted_toList.imp fun h => ne_of_lt h)
    rw [flagged, countP_singleton]
    by_cases hmem : kind ∈ o.failureFlags.toList.map metric
    · rw [count_eq_one_of_mem hnodup hmem, if_pos (decide_eq_true hmem)]
    · rw [count_eq_zero_of_not_mem hmem, if_neg (by simpa using hmem)]
  rw [hmetrics, hflags]

theorem countObservations_ok (observations : List LabObservation)
    (h : observations.foldlM countObservation counters = .ok counters') :
    counters' kind = ⟨(counters kind).numerator + flagged observations kind,
      (counters kind).denominator + eligible observations kind⟩ := by
  induction observations generalizing counters with
  | nil =>
    cases h
    rfl
  | cons o observations ih =>
    obtain ⟨counters₁, hone, hrest⟩ := bind_eq_ok.mp h
    rw [ih hrest, countObservation_ok hone]
    have heligible : eligible (o :: observations) kind = eligible [o] kind + eligible observations kind := by
      rw [eligible, ← singleton_append, countP_append]
      rfl
    have hflagged : flagged (o :: observations) kind = flagged [o] kind + flagged observations kind := by
      rw [flagged, ← singleton_append, countP_append]
      rfl
    rw [heligible, hflagged]
    simp only [MetricCounter.mk.injEq]
    omega

/-- A value's kind is the one it is made for, and it is measured where something is. -/
theorem LabMetricValue.new_ok {value : LabMetricValue} (h : new kind n m = .ok value) :
    value.kind = kind ∧ value.numerator = n ∧ value.denominator = m ∧
      (value.status = .measured ↔ m ≠ 0) := by
  unfold new at h
  rw [rejectIf_bind_eq_ok] at h
  obtain ⟨-, h⟩ := h
  by_cases hzero : m = 0
  · rw [if_pos hzero] at h
    cases h
    simp [hzero]
  · rw [if_neg hzero, rejectIf_bind_eq_ok] at h
    obtain ⟨-, h⟩ := h
    cases h
    simp [hzero]

/-- Each listed metric is set from its counter, the others stay. -/
theorem setMetrics_ok (kinds : List LabMetricKind) (hnodup : kinds.Nodup)
    (h : kinds.foldlM (setMetric counters) snapshot = .ok snapshot') :
    (kind ∈ kinds → LabMetricValue.new kind (counters kind).numerator (counters kind).denominator =
      .ok (snapshot'.get kind)) ∧ (kind ∉ kinds → snapshot'.get kind = snapshot.get kind) := by
  induction kinds generalizing snapshot with
  | nil =>
    cases h
    exact ⟨nofun, fun _ => rfl⟩
  | cons k kinds ih =>
    obtain ⟨hk, hkinds⟩ := nodup_cons.mp hnodup
    obtain ⟨snapshot₁, hone, hrest⟩ := bind_eq_ok.mp h
    obtain ⟨value, hvalue, heq⟩ := bind_eq_ok.mp hone
    cases heq
    have hkind := (LabMetricValue.new_ok hvalue).1
    obtain ⟨hin, hout⟩ := ih hkinds hrest
    constructor
    · intro hmem
      rcases mem_cons.mp hmem with rfl | hmem
      · rw [hout hk, hvalue]
        simp [MetricSnapshot.get, MetricSnapshot.set, hkind]
      · exact hin hmem
    · intro hnot
      rw [mem_cons, not_or] at hnot
      rw [hout hnot.2]
      simp [MetricSnapshot.get, MetricSnapshot.set, hkind, hnot.1]

/-- **The snapshot counts the observations.** -/
theorem reduceMetricObservations_ok {observations : List LabObservation}
    (h : reduceMetricObservations observations = .ok snapshot) (kind : LabMetricKind) :
    (snapshot.get kind).kind = kind ∧
      (snapshot.get kind).numerator = flagged observations kind ∧
      (snapshot.get kind).denominator = eligible observations kind ∧
      ((snapshot.get kind).status = .measured ↔ eligible observations kind ≠ 0) := by
  obtain ⟨-, -, h⟩ := bind_eq_ok.mp h
  obtain ⟨counters, hcounters, hset⟩ := bind_eq_ok.mp h
  have hcounted : counters kind = ⟨0 + flagged observations kind, 0 + eligible observations kind⟩ :=
    countObservations_ok observations hcounters
  have hvalue := (setMetrics_ok _ LabMetricKind.nodup_all hset).1 kind.mem_all
  rw [hcounted] at hvalue
  simpa using LabMetricValue.new_ok hvalue

end
end Localview.ValidationLab
