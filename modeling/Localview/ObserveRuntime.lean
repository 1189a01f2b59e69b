import Localview.ResourceGovernor
import Localview.SemanticSnapshot

/-! # The Windows observation runtime

One session of `windows-observe-runtime`: attaching, draining the provider's
callbacks into the bridge and reconciling (`runtime_manager.rs`, `lib.rs`), the
semantic read, and the preflight of an action (`action_preflight.rs`).

What the provider and the resource governor answer, and the ids that are minted,
are arguments.  The runtime holds its operation gate through each of these calls
but the preflight, which takes it for the read only; `drain_once` and
`preflight_uia_action` are given by the parts other calls can come between.
-/
namespace Localview
open EarlyReturn

/-! ## The bridge binding -/

/-- The provider a session is bound to. -/
structure WindowsObserveBridgeBinding where
  sessionId : SessionId
  generation : Nat
  providerIncarnationRef : ProviderIncarnationRef
  targetIncarnationRef : TargetIncarnationRef
  sequenceBaseline : Nat

/-- Why the bridge refuses the provider. -/
inductive WindowsObserveBridgeError
  | binding (error : ProviderObservationBindingError)
  | observationBindingMissing
  | boundProviderIncarnationMismatch
  | boundTargetIncarnationMismatch
  | boundGenerationMismatch
  | providerIncarnationMismatch
  | targetIncarnationMismatch
  | elementProviderIncarnationMismatch
  | elementTargetIncarnationMismatch
  | nonIncreasingSequence
  | invalidLatestSequence
  | reconciliationProviderIncarnationMismatch
  | reconciliationTargetIncarnationMismatch
  | reconciliationRejected
  | observationStateMissing

/-- What a UIA callback reports. -/
inductive WindowsUiaEventKind
  | propertyChanged (propertyId : Int)
  | structureChanged (changeType : Int)
  | focusChanged

/-- A callback of the provider. -/
structure WindowsUiaEvent where
  sequence : Nat
  capturedAt : Timestamp
  providerIncarnationRef : ProviderIncarnationRef
  targetIncarnationRef : TargetIncarnationRef
  kind : WindowsUiaEventKind
  elementRef : Option ProviderElementRef

/-- What a drain hands out. -/
structure WindowsUiaEventDrain where
  events : List WindowsUiaEvent
  (droppedBeforeDrain latestSequence : Nat)

def WindowsUiaEventKind.observerKind : WindowsUiaEventKind → ObserverEventKind
  | .propertyChanged _ | .structureChanged _ => .semanticSnapshot
  | .focusChanged => .focus

/-- The payload of an event, as compact JSON. -/
def WindowsUiaEventKind.payload (kind : WindowsUiaEventKind) (dropped : Nat)
    (elementPresent : Bool) : String :=
  let dropped := "\"dropped_before_drain\":" ++ toString dropped ++ ",\"native_event\":"
  let present := "\"provider_element_present\":" ++ toString elementPresent ++
    ",\"reliability_profile_revision\":\"windows-uia-events-v1\"\x7d"
  match kind with
  | .propertyChanged propertyId => "\x7b" ++ dropped ++
      "\"property_changed\",\"native_provider\":\"windows_uia\",\"property_id\":" ++
        toString propertyId ++ "," ++ present
  | .structureChanged changeType => "\x7b\"change_type\":" ++ toString changeType ++ "," ++
      dropped ++ "\"structure_changed\",\"native_provider\":\"windows_uia\"," ++ present
  | .focusChanged => "\x7b" ++ dropped ++
      "\"focus_changed\",\"native_provider\":\"windows_uia\"," ++ present

def projectEvent (event : WindowsUiaEvent) (firstRetainedEvent : Bool) (droppedBeforeDrain : Nat) :
    ObserverEvent :=
  { seq := event.sequence, capturedAt := event.capturedAt, kind := event.kind.observerKind
    reference := none, route := none
    payload := event.kind.payload (if firstRetainedEvent then droppedBeforeDrain else 0)
      event.elementRef.isSome }

namespace WindowsObserveBridgeBinding
variable (binding : WindowsObserveBridgeBinding)

/-- `bind`; a Windows session's `initialContinuity` is `orderingOpaque`. -/
def bind (initialContinuity : EventContinuityState) (bridge : SessionObservation) :
    Except WindowsObserveBridgeError ObservationStatus × SessionObservation :=
  let (result, bridge) := bindProviderObservation bridge
    { generation := binding.generation, providerIncarnationRef := binding.providerIncarnationRef
      targetIncarnationRef := binding.targetIncarnationRef, initialContinuity
      sequenceBaseline := some binding.sequenceBaseline }
  (result.mapError .binding, bridge)

def requireLiveBinding (bridge : SessionObservation) :
    Except WindowsObserveBridgeError ObservationStatus := do
  let status ← okOr (observationStatus bridge) .observationBindingMissing
  rejectIf (status.providerIncarnationRef ≠ binding.providerIncarnationRef)
    .boundProviderIncarnationMismatch
  rejectIf (status.targetIncarnationRef ≠ binding.targetIncarnationRef)
    .boundTargetIncarnationMismatch
  rejectIf (status.generation ≠ binding.generation) .boundGenerationMismatch
  return status

/-- The loop of `validate_drain`: the last sequence number. -/
def validateEvents : Option Nat → List WindowsUiaEvent →
    Except WindowsObserveBridgeError (Option Nat)
  | previousSequence, [] => .ok previousSequence
  | previousSequence, event :: events => do
      rejectIf (event.providerIncarnationRef ≠ binding.providerIncarnationRef)
        .providerIncarnationMismatch
      rejectIf (event.targetIncarnationRef ≠ binding.targetIncarnationRef)
        .targetIncarnationMismatch
      rejectIf (event.elementRef.any (fun element =>
        element.providerIncarnationRef ≠ binding.providerIncarnationRef) = true)
        .elementProviderIncarnationMismatch
      rejectIf (event.elementRef.any (fun element =>
        element.targetIncarnationRef ≠ binding.targetIncarnationRef) = true)
        .elementTargetIncarnationMismatch
      rejectIf (previousSequence.any (fun previous => event.sequence ≤ previous) = true)
        .nonIncreasingSequence
      validateEvents (some event.sequence) events

def validateDrain (drain : WindowsUiaEventDrain) : Except WindowsObserveBridgeError Unit := do
  let previousSequence ← binding.validateEvents none drain.events
  rejectIf (previousSequence.any (fun sequence => drain.latestSequence < sequence) = true)
    .invalidLatestSequence

def providerBatch (drain : WindowsUiaEventDrain) : ProviderObserverBatch :=
  { generation := binding.generation, providerIncarnationRef := binding.providerIncarnationRef
    targetIncarnationRef := binding.targetIncarnationRef
    events := drain.events.mapIdx fun index event =>
      projectEvent event (index == 0) drain.droppedBeforeDrain }

def ingestDrain (eventCapacity : Nat) (bridge : SessionObservation) (drain : WindowsUiaEventDrain)
    (webBefore : Nat → List ObserverBatch) :
    Except WindowsObserveBridgeError ProviderIngestReport × SessionObservation :=
  match do discard (binding.requireLiveBinding bridge); binding.validateDrain drain with
  | .error error => (.error error, bridge)
  | .ok () =>
      let (report, bridge) := ingestProvider eventCapacity bridge (binding.providerBatch drain)
        webBefore
      (.ok report, bridge)

def recordSnapshotReconciliation (bridge : SessionObservation) (snapshot : SemanticSnapshot)
    (receiptId : String) :
    Except WindowsObserveBridgeError ObservationStatus × SessionObservation :=
  match (do
    discard (binding.requireLiveBinding bridge)
    rejectIf (snapshot.providerIncarnationRef ≠ binding.providerIncarnationRef)
      .reconciliationProviderIncarnationMismatch
    rejectIf (snapshot.targetIncarnationRef ≠ binding.targetIncarnationRef)
      .reconciliationTargetIncarnationMismatch : Except WindowsObserveBridgeError Unit) with
  | .error error => (.error error, bridge)
  | .ok () =>
      match recordReconciliation bridge (snapshot.revision.reconciliationReceipt receiptId) with
      | (false, bridge) => (.error .reconciliationRejected, bridge)
      | (true, bridge) => (okOr (observationStatus bridge) .observationStateMissing, bridge)

end WindowsObserveBridgeBinding

/-! ## The session -/

/-- The variants of `WindowsObserveRuntimeError` these calls return. -/
inductive ObserveRuntimeError
  | alreadyAttached (sessionId : SessionId)
  | notAttached (sessionId : SessionId)
  | provider (operation message : String)
  | resourceDenied (denial : ResourceAdmissionDenial)
  | subscriptionProviderIncarnationMismatch
  | subscriptionTargetIncarnationMismatch
  | bridge (error : WindowsObserveBridgeError)
  | observationStateMissing (sessionId : SessionId)

/-- An attached observation, but for its provider handles and its accounting. -/
structure ActiveObservation where
  binding : WindowsObserveBridgeBinding
  currentSnapshot : SemanticSnapshot

structure ObserveSession where
  sessionId : SessionId
  bridge : SessionObservation
  active : Option ActiveObservation
  /-- The last generation attached, or 0. -/
  generation : Nat

/-- Which subscription the events come from. -/
structure WindowsObserveSubscriptionLineage where
  providerIncarnationRef : ProviderIncarnationRef
  targetIncarnationRef : TargetIncarnationRef
  sequenceBaseline : Nat

/-- What an attachment learns from the governor and the provider. -/
structure AttachSurroundings where
  admission : Except ResourceAdmissionDenial Unit
  attached : Except String Unit
  providerIncarnationRef : ProviderIncarnationRef
  targetIncarnationRef : TargetIncarnationRef
  subscribed : Except String WindowsObserveSubscriptionLineage
  initialContinuity : EventContinuityState
  snapshot : Except String SemanticSnapshot
  receiptUuid : Uuid

/-- What the first part of a drain learns. -/
structure DrainSurroundings where
  admission : Except ResourceAdmissionDenial Unit
  drained : Except String WindowsUiaEventDrain
  /-- The web batches that reach the buffer before each event. -/
  webBefore : Nat → List ObserverBatch

/-- What a reconciliation learns. -/
structure ReconcileSurroundings where
  admission : Except ResourceAdmissionDenial Unit
  snapshot : Except String SemanticSnapshot
  receiptUuid : Uuid

/-- `requires_reconciliation` and `continuity_requires_reconciliation` -/
def requiresReconciliation : EventContinuityState → Bool
  | .gapDetected | .sequenceReset | .providerReincarnated | .reconciliationRequired
  | .reconnectedUnreconciled | .broken => true
  | .continuous | .orderingOpaque => false

/-- `reconciliation_needed` of a drain, from the ingest report and the status after
it. -/
def reconciliationNeeded (report : ProviderIngestReport) (observed : ObservationStatus) : Bool :=
  (decide (0 < report.ingest.accepted) && report.continuity = .orderingOpaque) ||
    (requiresReconciliation report.continuity && observed.currentSnapshotCompleteness.isNone)

namespace ObserveSession
variable (s : ObserveSession)

def attach (e : AttachSurroundings) : Except ObserveRuntimeError ObservationStatus × ObserveSession :=
  if s.active.isSome then (.error (.alreadyAttached s.sessionId), s)
  else match (do
    e.admission.mapError .resourceDenied
    e.attached.mapError (.provider "attach")
    let lineage ← e.subscribed.mapError (.provider "subscribe_events")
    rejectIf (lineage.providerIncarnationRef ≠ e.providerIncarnationRef)
      .subscriptionProviderIncarnationMismatch
    rejectIf (lineage.targetIncarnationRef ≠ e.targetIncarnationRef)
      .subscriptionTargetIncarnationMismatch
    let snapshot ← e.snapshot.mapError (.provider "initial_snapshot")
    return (lineage, snapshot) : Except ObserveRuntimeError _) with
  | .error error => (.error error, s)
  | .ok (lineage, snapshot) =>
      let generation := saturatingSucc s.generation
      let binding : WindowsObserveBridgeBinding :=
        { sessionId := s.sessionId, generation, providerIncarnationRef := e.providerIncarnationRef
          targetIncarnationRef := e.targetIncarnationRef
          sequenceBaseline := lineage.sequenceBaseline }
      match binding.bind e.initialContinuity s.bridge with
      | (.error error, bridge) => (.error (.bridge error), { s with bridge })
      | (.ok _, bridge) =>
          let receiptId := "reconcile:windows-uia:initial:" ++ s.sessionId.display ++ ":" ++
            toString generation ++ ":" ++ e.receiptUuid.display
          match binding.recordSnapshotReconciliation bridge snapshot receiptId with
          | (.error error, bridge) =>
              (.error (.bridge error), { s with bridge := (releaseProviderObservation bridge).2 })
          | (.ok status, bridge) =>
              (.ok status, { s with
                bridge, generation, active := some { binding, currentSnapshot := snapshot } })

/-- The batch a drain offers to the bridge, if it gets that far. -/
def drainedBatch (e : DrainSurroundings) : Option ProviderObserverBatch :=
  match s.active, e.admission, e.drained with
  | some observation, .ok (), .ok drain =>
      match do discard (observation.binding.requireLiveBinding s.bridge)
               observation.binding.validateDrain drain with
      | .ok () => some (observation.binding.providerBatch drain)
      | .error _ => none
  | _, _, _ => none

/-- `drain_once` up to its reconciliation: the report, and the status observed
after it. -/
def drainEvents (eventCapacity : Nat) (e : DrainSurroundings) :
    Except ObserveRuntimeError (ProviderIngestReport × ObservationStatus) × ObserveSession :=
  match s.active with
  | none => (.error (.notAttached s.sessionId), s)
  | some observation =>
      match (do
        e.admission.mapError .resourceDenied
        e.drained.mapError (.provider "drain_events") : Except ObserveRuntimeError _) with
      | .error error => (.error error, s)
      | .ok drain =>
          match observation.binding.ingestDrain eventCapacity s.bridge drain e.webBefore with
          | (.error error, bridge) => (.error (.bridge error), { s with bridge })
          | (.ok report, bridge) =>
              match observationStatus bridge with
              | none => (.error (.observationStateMissing s.sessionId), { s with bridge })
              | some observed => (.ok (report, observed), { s with bridge })

def updateReconciliationSnapshot (snapshot : SemanticSnapshot) : ObserveSession :=
  { s with active := s.active.map fun observation => { observation with currentSnapshot := snapshot } }

/-- A snapshot recorded in the bridge and made the current one, as a reconciliation
does it, and so do `refresh_uia_action_evidence` and
`capture_postcondition_observation_with_snapshot` with a snapshot that has passed
their checks. -/
def publishSnapshot (snapshot : SemanticSnapshot) (receiptId : String) :
    Except ObserveRuntimeError ObservationStatus × ObserveSession :=
  match s.active with
  | none => (.error (.notAttached s.sessionId), s)
  | some observation =>
      match observation.binding.recordSnapshotReconciliation s.bridge snapshot receiptId with
      | (.error error, bridge) => (.error (.bridge error), { s with bridge })
      | (.ok status, bridge) =>
          (.ok status, { s with bridge }.updateReconciliationSnapshot snapshot)

/-- The id of the receipt a drain's reconciliation records. -/
def reconciliationReceiptId (receiptUuid : Uuid) : String :=
  "reconcile:windows-uia:gap:" ++ s.sessionId.display ++ ":" ++
    toString (s.active.elim 0 (·.binding.generation)) ++ ":" ++ receiptUuid.display

/-- The reconciliation of a drain. -/
def reconcile (e : ReconcileSurroundings) :
    Except ObserveRuntimeError ObservationStatus × ObserveSession :=
  match (do
    e.admission.mapError .resourceDenied
    e.snapshot.mapError (.provider "reconciliation_snapshot") : Except ObserveRuntimeError _) with
  | .error error => (.error error, s)
  | .ok snapshot => s.publishSnapshot snapshot (s.reconciliationReceiptId e.receiptUuid)

/-- `release`, but for its unsubscribing. -/
def release : Except ObserveRuntimeError Unit × ObserveSession :=
  match s.active with
  | none => (.error (.notAttached s.sessionId), s)
  | some _ =>
      (.ok (), { s with active := none, bridge := (releaseProviderObservation s.bridge).2 })

def status : Option ObservationStatus :=
  s.active.bind fun _ => observationStatus s.bridge

end ObserveSession

/-- A recorded snapshot is the bridge's reconciliation from then on; a refused one
leaves the bridge alone. -/
theorem recordSnapshotReconciliation_cases (binding : WindowsObserveBridgeBinding)
    (bridge : SessionObservation) (snapshot : SemanticSnapshot) (receiptId : String) :
    (∃ error, binding.recordSnapshotReconciliation bridge snapshot receiptId =
      (.error error, bridge)) ∨
    ∃ state, bridge.continuity = some state ∧
      let state' := { state with
        reconciliation := some (snapshot.revision.reconciliationReceipt receiptId) }
      binding.recordSnapshotReconciliation bridge snapshot receiptId =
        (.ok state'.status, { bridge with continuity := some state' }) := by
  unfold WindowsObserveBridgeBinding.recordSnapshotReconciliation
  split
  · next error _ => exact .inl ⟨error, rfl⟩
  · obtain hrefused | ⟨state, hstate, hrecorded⟩ := recordReconciliation_cases bridge
      (snapshot.revision.reconciliationReceipt receiptId)
    · rw [hrefused]
      exact .inl ⟨_, rfl⟩
    · rw [hrecorded]
      exact .inr ⟨state, hstate, rfl⟩

/-- A drain ends before it offers anything, or is one `ingest_provider`. -/
theorem drainEvents_cases (eventCapacity : Nat) (s : ObserveSession) (e : DrainSurroundings) :
    (s.drainedBatch e = none ∧ ∃ error, s.drainEvents eventCapacity e = (.error error, s)) ∨
    ∃ batch, s.drainedBatch e = some batch ∧
      let ingested := ingestProvider eventCapacity s.bridge batch e.webBefore
      ∃ observed, observationStatus ingested.2 = some observed ∧
        s.drainEvents eventCapacity e =
          (.ok (ingested.1, observed), { s with bridge := ingested.2 }) := by
  obtain ⟨sessionId, bridge, active, generation⟩ := s
  unfold ObserveSession.drainedBatch ObserveSession.drainEvents
  cases active with
  | none => exact .inl ⟨rfl, _, rfl⟩
  | some observation =>
    cases hadmission : e.admission with
    | error denial => exact .inl ⟨rfl, _, rfl⟩
    | ok =>
      cases hdrained : e.drained with
      | error message => exact .inl ⟨rfl, _, rfl⟩
      | ok drain =>
        have hdo : (do
            (Except.ok () : Except ResourceAdmissionDenial Unit).mapError
              ObserveRuntimeError.resourceDenied
            (Except.ok drain : Except String _).mapError (.provider "drain_events") :
            Except ObserveRuntimeError _) = .ok drain := rfl
        rw [hdo]
        dsimp only
        unfold WindowsObserveBridgeBinding.ingestDrain
        cases hvalid : (do
            discard (observation.binding.requireLiveBinding bridge)
            observation.binding.validateDrain drain : Except WindowsObserveBridgeError Unit) with
        | error error => exact .inl ⟨rfl, _, rfl⟩
        | ok =>
          obtain ⟨state, hstate⟩ := continuity_ingestProvider eventCapacity bridge
            (observation.binding.providerBatch drain) e.webBefore
          have hstatus : observationStatus (ingestProvider eventCapacity bridge
              (observation.binding.providerBatch drain) e.webBefore).2 = some state.status := by
            rw [observationStatus, hstate]
            rfl
          refine .inr ⟨_, rfl, state.status, hstatus, ?_⟩
          dsimp only
          rw [hstatus]

/-! ## Reading and preflight -/

/-- A node to be read. -/
structure WindowsSemanticReadRequest where
  authority : ActionEnvelopeMetadata
  elementRef : ProviderElementRef

/-- A node that was read. -/
structure WindowsSemanticReadReceipt where
  (snapshotCutRef cacheRevisionRef observedDigest : String)
  node : NativeSemanticNodeObservation

/-- Why the tree is not read. -/
inductive WindowsSemanticReadError
  | notAttached (sessionId : SessionId)
  | authority (error : ActionEnvelopeBindingError)
  | observeOnlyRiskRequired
  | pureReadIdempotencyRequired
  | preconditionSnapshotCutMismatch (expected actual : String)
  | snapshotIncomplete
  | elementAcquisitionCutMismatch (expected actual : String)
  | elementNotFound

def validateSemanticReadAuthority (authority : ActionEnvelopeMetadata)
    (snapshot : SemanticSnapshot) : Except WindowsSemanticReadError Unit := do
  rejectIf (authority.riskClass ≠ .observeOnly) .observeOnlyRiskRequired
  rejectIf (authority.idempotencyClass ≠ .pureRead) .pureReadIdempotencyRequired
  rejectIf (authority.providerIncarnationRef ≠ snapshot.providerIncarnationRef)
    (.authority .providerIncarnationMismatch)
  rejectIf (authority.targetIncarnationRef ≠ snapshot.targetIncarnationRef)
    (.authority .targetIncarnationMismatch)
  rejectIf (authority.preconditionSnapshotCutRef ≠ snapshot.snapshotCutRef)
    (.preconditionSnapshotCutMismatch snapshot.snapshotCutRef authority.preconditionSnapshotCutRef)

def ObserveSession.readSemantic (s : ObserveSession) (request : WindowsSemanticReadRequest) :
    Except WindowsSemanticReadError WindowsSemanticReadReceipt := do
  let observation ← okOr s.active (.notAttached s.sessionId)
  let snapshot := observation.currentSnapshot
  validateSemanticReadAuthority request.authority snapshot
  rejectIf (snapshot.completeness ≠ .established) .snapshotIncomplete
  rejectIf (request.elementRef.acquisitionCutRef ≠ snapshot.snapshotCutRef)
    (.elementAcquisitionCutMismatch snapshot.snapshotCutRef request.elementRef.acquisitionCutRef)
  let node ← okOr (snapshot.nodes.find? fun node => node.elementRef = request.elementRef)
    .elementNotFound
  return { snapshotCutRef := snapshot.snapshotCutRef, cacheRevisionRef := snapshot.cacheRevisionRef
           observedDigest := snapshot.observedDigest, node }

/-- An action to be checked. -/
structure WindowsUiaActionPreflightRequest where
  authority : ActionEnvelopeMetadata
  elementRef : ProviderElementRef
  requiredPattern : WindowsUiaPattern

/-- An action that was checked. -/
structure WindowsUiaActionPreflightReceipt where
  authority : ActionEnvelopeMetadata
  (snapshotCutRef cacheRevisionRef observedDigest : String)
  elementRef : ProviderElementRef
  requiredPattern : WindowsUiaPattern

/-- Why a preflight fails. -/
inductive WindowsUiaActionPreflightError
  | notAttached (sessionId : SessionId)
  | authority (error : ActionEnvelopeBindingError)
  | continuityUnreconciled (continuity : EventContinuityState)
  | observationChangedDuringPreflight
  | preconditionSnapshotCutMismatch (expected actual : String)
  | snapshotIncomplete
  | elementAcquisitionCutMismatch (expected actual : String)
  | elementNotFound
  | elementNotRealized (realization : ProviderElementRealization)
  | patternUnsupported (pattern : WindowsUiaPattern)
  | patternSupportUnknown (pattern : WindowsUiaPattern)
  | setValueUnsafeCapability (isPassword isReadOnly : WindowsUiaBooleanCapabilityFact)
  | readGateInvariant

def mapReadError : WindowsSemanticReadError → WindowsUiaActionPreflightError
  | .notAttached sessionId => .notAttached sessionId
  | .authority error => .authority error
  | .preconditionSnapshotCutMismatch expected actual =>
      .preconditionSnapshotCutMismatch expected actual
  | .snapshotIncomplete => .snapshotIncomplete
  | .elementAcquisitionCutMismatch expected actual => .elementAcquisitionCutMismatch expected actual
  | .elementNotFound => .elementNotFound
  | .observeOnlyRiskRequired | .pureReadIdempotencyRequired => .readGateInvariant

def requireReconciledContinuity (status : ObservationStatus) :
    Except WindowsUiaActionPreflightError Unit :=
  rejectIf (requiresReconciliation status.eventContinuity = true ∧
    status.currentSnapshotCompleteness ≠ some .established)
    (.continuityUnreconciled status.eventContinuity)

namespace ObserveSession
variable (s : ObserveSession)

def preflightStatus : Except WindowsUiaActionPreflightError ObservationStatus := do
  let statusBefore ← okOr s.status (.notAttached s.sessionId)
  requireReconciledContinuity statusBefore
  return statusBefore

def preflightRead (request : WindowsUiaActionPreflightRequest) :
    Except WindowsUiaActionPreflightError WindowsSemanticReadReceipt :=
  (s.readSemantic
    { authority := { request.authority with
        riskClass := .observeOnly, idempotencyClass := .pureRead }
      elementRef := request.elementRef }).mapError mapReadError

def preflightReceipt (request : WindowsUiaActionPreflightRequest) (statusBefore : ObservationStatus)
    (read : WindowsSemanticReadReceipt) :
    Except WindowsUiaActionPreflightError WindowsUiaActionPreflightReceipt := do
  let statusAfter ← okOr s.status (.notAttached s.sessionId)
  rejectIf (statusAfter ≠ statusBefore) .observationChangedDuringPreflight
  requireReconciledContinuity statusAfter
  rejectIf (read.node.elementRef.realization ≠ .realizedCurrent)
    (.elementNotRealized read.node.elementRef.realization)
  match read.node.supportFor request.requiredPattern with
  | .unsupported => .error (.patternUnsupported request.requiredPattern)
  | .unknown => .error (.patternSupportUnknown request.requiredPattern)
  | .supported =>
      let facts := read.node.valueCapabilityFacts
      rejectIf (request.requiredPattern = .value ∧ facts.permitsSetValue = false)
        (.setValueUnsafeCapability facts.isPassword facts.isReadOnly)
      return { authority := request.authority, snapshotCutRef := read.snapshotCutRef
               cacheRevisionRef := read.cacheRevisionRef, observedDigest := read.observedDigest
               elementRef := read.node.elementRef, requiredPattern := request.requiredPattern }

end ObserveSession

end Localview
