import Localview.CanonicalDispatch
import Localview.PostconditionReconciliation

/-! # Executing an armed SetValue

`execute_armed_uia_set_value_dispatch`
(`windows-observe-runtime/src/set_value_execution.rs`) consumes one execution
permit through exactly one mutation and one fresh equality observation.  The
code is one function; it is cut here where its evidence changes: the checks that
end with the dispatch request, the one dispatch and its durable record, the
observation, and the verification of the outcome.

The executor, the decoder of payload-equality contracts and what the runtime
learns while it captures are arguments.
-/
namespace Localview
open EarlyReturn AsyncState

/-! ## The dispatch request -/

def maxSetValueUtf8Bytes : Nat := 16 * 1024

/-- Why a request is not well formed. -/
inductive WindowsUiaSetValueDispatchRequestError
  | invalidAuthorityMetadata
  | elementLineageMismatch
  | invalidPayloadRef
  | payloadTooLarge
  | payloadContainsNul
  | payloadNotUtf8
  | clearValuePayloadMustBeEmpty

def WindowsUiaSetValueDispatchRequestError.display : WindowsUiaSetValueDispatchRequestError → String
  | .invalidAuthorityMetadata => "Windows UI Automation SetValue authority metadata is invalid"
  | .elementLineageMismatch => "Windows UI Automation SetValue element lineage is inconsistent"
  | .invalidPayloadRef => "Windows UI Automation SetValue payload reference is invalid"
  | .payloadTooLarge => "Windows UI Automation SetValue payload exceeds 16 KiB"
  | .payloadContainsNul =>
      "Windows UI Automation SetValue replacement payload contains U+0000"
  | .payloadNotUtf8 =>
      "Windows UI Automation SetValue replacement payload is not valid UTF-8"
  | .clearValuePayloadMustBeEmpty =>
      "Windows UI Automation ClearValue requires an empty process-local payload"

/-- What the provider is given. -/
structure WindowsUiaSetValueDispatchRequest where
  (dispatchAttemptRef actionId : Uuid)
  preparationJournalSequence : Nat
  (preparationReceiptRef snapshotCutRef : String)
  providerIncarnationRef : ProviderIncarnationRef
  targetIncarnationRef : TargetIncarnationRef
  elementRef : ProviderElementRef
  contextRequirements : WindowsUiaDispatchContextRequirements
  payloadRef : Uuid
  mode : SetValueMode
  secretUtf8 : Bytes

/-- `str::from_utf8(bytes).is_ok()` -/
def isUtf8 (bytes : Bytes) : Bool := (ByteArray.mk bytes.toArray).validateUTF8

def checkSetValuePayload (mode : SetValueMode) (bytes : Bytes) :
    Except WindowsUiaSetValueDispatchRequestError Unit :=
  match mode with
  | .replaceValue => rejectIf (0 ∈ bytes) .payloadContainsNul
  | .clearValue => rejectIf (bytes ≠ []) .clearValuePayloadMustBeEmpty

/-- `WindowsUiaSetValueDispatchRequest::new` -/
def WindowsUiaSetValueDispatchRequest.new (r : WindowsUiaSetValueDispatchRequest) :
    Except WindowsUiaSetValueDispatchRequestError WindowsUiaSetValueDispatchRequest := do
  rejectIf (r.dispatchAttemptRef = 0 ∨ r.actionId = 0 ∨ r.preparationJournalSequence = 0 ∨
      trimIsEmpty r.preparationReceiptRef = true ∨ trimIsEmpty r.snapshotCutRef = true ∨
      trimIsEmpty r.providerIncarnationRef.asStr = true ∨
      trimIsEmpty r.targetIncarnationRef.asStr = true)
    .invalidAuthorityMetadata
  rejectIf (r.payloadRef = 0) .invalidPayloadRef
  rejectIf (r.elementRef.providerIncarnationRef ≠ r.providerIncarnationRef ∨
      r.elementRef.targetIncarnationRef ≠ r.targetIncarnationRef ∨
      r.elementRef.acquisitionCutRef ≠ r.snapshotCutRef)
    .elementLineageMismatch
  rejectIf (r.secretUtf8.length > maxSetValueUtf8Bytes) .payloadTooLarge
  rejectIf (isUtf8 r.secretUtf8 = false) .payloadNotUtf8
  checkSetValuePayload r.mode r.secretUtf8
  .ok r

/-- What the provider answers. -/
structure WindowsUiaSetValueDispatchReceipt where
  (dispatchAttemptRef actionId : Uuid)
  preparationJournalSequence : Nat
  (preparationReceiptRef snapshotCutRef : String)
  providerIncarnationRef : ProviderIncarnationRef
  targetIncarnationRef : TargetIncarnationRef
  elementRef : ProviderElementRef
  requiredPattern : WindowsUiaPattern
  dispatchOperation : CanonicalActionOperation
  payloadRef : Uuid
  mode : SetValueMode
  contextRequirements : WindowsUiaDispatchContextRequirements
  finalContext : WindowsUiaDispatchContextObservation
  transportResult : TransportResult
  dispatchResult : DispatchResult

/-- Whether the value read back is the payload. -/
inductive WindowsUiaSetValueEquality
  | «match»
  | mismatch
  | unknown

/-- The fresh equality request; its receipt repeats all but the expected bytes. -/
structure WindowsUiaSetValueVerificationRequest where
  (actionId payloadRef : Uuid)
  mode : SetValueMode
  providerIncarnationRef : ProviderIncarnationRef
  targetIncarnationRef : TargetIncarnationRef
  elementRef : ProviderElementRef
  observationCutRef : String
  expectedUtf8 : Bytes

/-- The value read back. -/
structure WindowsUiaSetValueVerificationReceipt where
  (actionId payloadRef : Uuid)
  mode : SetValueMode
  providerIncarnationRef : ProviderIncarnationRef
  targetIncarnationRef : TargetIncarnationRef
  elementRef : ProviderElementRef
  observationCutRef : String
  equality : WindowsUiaSetValueEquality

/-- The provider's executor; its errors are their display. -/
structure WindowsUiaSetValueExecutor where
  dispatchSetValue :
    WindowsUiaSetValueDispatchRequest → Except String WindowsUiaSetValueDispatchReceipt
  verifySetValue :
    WindowsUiaSetValueVerificationRequest → Except String WindowsUiaSetValueVerificationReceipt

/-- The confirmed, process-local payload. -/
structure WindowsUiaSetValueExecutionPayload where
  payloadRef : Uuid
  mode : SetValueMode
  utf8Bytes : Bytes

/-! ## Errors and outcomes -/

/-- Why a value is not set. -/
inductive WindowsUiaSetValueExecutionError
  | canonicalEnvelopeMissing
  | canonicalEnvelopeChanged
  | canonicalEnvelopeStale
  | journalStateChanged (state : Option ConsequentialRecoveryState)
  | canonicalOperationMismatch
  | requiredPatternMismatch
  | payloadBindingMissing
  | payloadBindingMismatch
  | dispatchRequest (message : String)
  | providerDispatch (message : String)
  | providerReceiptMismatch
  | providerReceiptTransportMismatch
  | providerFinalContextMismatch
  | executionAuthorityAbandonmentFailed (stage message : String)
  | journalLinearizationFailed (message : String)
  | linearizationEntryMismatch
  | observationAuthority (message : String)
  | capture (message : String)
  | snapshotBindingMismatch
  | admittedEnvelopeMissing
  | admittedEnvelopeMismatch
  | payloadEqualityContractMismatch
  | verification (message : String)
  | verificationReceiptMismatch
  | reconciliation (message : String)
  | commit (message : String)

/-- How a verified execution ended. -/
inductive WindowsUiaVerifiedExecutionOutcome
  | committed (actionId : Uuid) (worldOutcome : WorldOutcome) (dispatchJournalSequence
      reconciliationJournalSequence commitJournalSequence : Nat)
  | knownNotDispatched (actionId : Uuid) (dispatchResult : DispatchResult)
      (dispatchJournalSequence : Nat)
  | postconditionNotVerified (actionId : Uuid) (worldOutcome : WorldOutcome)
      (dispatchJournalSequence reconciliationJournalSequence : Nat)
  deriving DecidableEq

/-- The error's `Display` text. -/
def ConsequentialPostconditionObservationError.display :
    ConsequentialPostconditionObservationError → String
  | .invalidRecoveryState actionId current =>
      "postcondition observation for action " ++ actionId.display ++
        " is invalid from recovery state " ++ debugRecoveryState current
  | .dispatchAuthorityStillLive actionId =>
      "dispatch authority is still live for action " ++ actionId.display ++
        "; postcondition observation would race dispatch"
  | .observationAlreadyLive actionId =>
      "a postcondition observation is already live for action " ++ actionId.display
  | .invalidPermit actionId reason =>
      "invalid postcondition observation permit for action " ++ actionId.display ++ ": " ++ reason
  | .providerIncarnationMismatch actionId =>
      "postcondition observation provider incarnation mismatch for action " ++ actionId.display
  | .targetIncarnationMismatch actionId =>
      "postcondition observation target incarnation mismatch for action " ++ actionId.display
  | .snapshotCutMismatch actionId expected actual =>
      "postcondition observation cut mismatch for action " ++ actionId.display ++ ": expected " ++
        expected ++ ", got " ++ actual
  | .missingReconciliationReceipt actionId =>
      "postcondition observation snapshot for action " ++ actionId.display ++
        " has no reconciliation receipt reference"

/-- The error's `Display` text. -/
def ConsequentialReconciliationError.display : ConsequentialReconciliationError → String
  | .unknownAction actionId => "unknown consequential action " ++ actionId.display
  | .providerIncarnationMismatch =>
      "consequential action provider incarnation does not match reconciliation evidence"
  | .targetIncarnationMismatch =>
      "consequential action target incarnation does not match reconciliation evidence"
  | .reconciliationSnapshotMismatch =>
      "reconciliation snapshot is not the exact current evidence bound to this action"
  | .reconciliationSnapshotIncomplete =>
      "reconciliation snapshot is incomplete or carries incompleteness debt"
  | .missingExpectedPostconditions =>
      "consequential action has no declared expected postconditions"
  | .duplicateExpectedPostcondition contractRef =>
      "consequential action declares duplicate expected postcondition " ++ contractRef
  | .duplicatePostconditionEvidence contractRef =>
      "postcondition evidence contains duplicate contract " ++ contractRef
  | .unexpectedPostconditionEvidence contractRef =>
      "postcondition evidence contains undeclared contract " ++ contractRef
  | .missingPostconditionReceipt contractRef =>
      "postcondition evidence for " ++ contractRef ++ " has no durable receipt reference"
  | .journal error => error.display

/-- The error's `Display` text. -/
def WindowsObserveRuntimeError.display : WindowsObserveRuntimeError → String
  | .notAttached sessionId =>
      "Windows observe session " ++ sessionId.display ++ " is not attached"
  | .provider operation message =>
      "Windows observe provider failed during " ++ operation ++ ": " ++ message
  | .postconditionObservationAuthority message =>
      "Windows postcondition observation authority failed: " ++ message
  | .other message => message

/-- The sequence of the action's admission. -/
def intentJournalSequence (entries : List ConsequentialJournalEntry) (actionId : Uuid) :
    Option Nat :=
  entries.findSome? fun entry =>
    match entry.transition with
    | .intentAdmitted _ => if entry.actionId = actionId then some entry.journalSequence else none
    | _ => none

def admittedOperation (actionId : Uuid) :
    Async DispatchWorld ConsequentialJournalError (Option CanonicalActionOperation) := do
  match ← .read fun w => intentJournalSequence w.journal.entries actionId with
  | none => pure none
  | some intentSequence =>
      match ← .access fun w => (w.operationFile actionId, w) with
      | none => pure none
      | some binding =>
          .reject (binding.actionId ≠ actionId ∨ binding.intentJournalSequence ≠ intentSequence)
            (.serialization "canonical operation binding does not match admitted intent")
          pure (some binding.operation)

def setValueCommitmentAlgorithm : String := "hmac-sha256-process-v1"

/-- The record is not one `record_set_value_payload_binding` wrote for this intent. -/
def payloadBindingInvalid (binding : DurableSetValuePayloadBinding) (actionId : Uuid)
    (intentSequence : Nat) : Bool :=
  binding.actionId ≠ actionId ∨ binding.intentJournalSequence ≠ intentSequence ∨
    binding.payloadRef = 0 ∨ binding.commitmentAlgorithm ≠ setValueCommitmentAlgorithm ∨
    binding.commitmentDigest.length ≠ 32

def setValuePayloadBinding (actionId : Uuid) :
    Async DispatchWorld ConsequentialJournalError (Option DurableSetValuePayloadBinding) := do
  let operation ← admittedOperation actionId
  if operation ≠ some .setValue then pure none else
    match ← .read fun w => intentJournalSequence w.journal.entries actionId with
    | none => pure none
    | some intentSequence =>
        match ← .access fun w => (w.setValuePayloadFile actionId, w) with
        | none => pure none
        | some binding =>
            .reject (payloadBindingInvalid binding actionId intentSequence = true)
              (.serialization "SetValue payload binding does not match admitted intent")
            pure (some binding)

/-! ## Up to the request -/

/-- `abandon`: give the permit up. -/
def abandonSetValue (permit : DispatchExecutionPermit) (stage : String) :
    Async DispatchWorld WindowsUiaSetValueExecutionError Unit :=
  Async.mapError (fun error => .executionAuthorityAbandonmentFailed stage error.display)
    (journalCall fun j => j.abandonDispatchExecution permit)

/-- `abandon(..).await?; return Err(e)` -/
def abandonThen {α : Type} (permit : DispatchExecutionPermit) (stage : String)
    (e : WindowsUiaSetValueExecutionError) :
    Async DispatchWorld WindowsUiaSetValueExecutionError α := do
  abandonSetValue permit stage
  .fail e

/-- `if bad { abandon(..).await?; return Err(e) }` -/
def rejectAbandoning (bad : Prop) [Decidable bad] (permit : DispatchExecutionPermit)
    (stage : String) (e : WindowsUiaSetValueExecutionError) :
    Async DispatchWorld WindowsUiaSetValueExecutionError Unit :=
  if bad then abandonThen permit stage e else pure ()

/-- The envelope, or the permit given up. -/
def envelopeOrAbandon (permit : DispatchExecutionPermit) :
    Option CanonicalActionEnvelope →
      Async DispatchWorld WindowsUiaSetValueExecutionError CanonicalActionEnvelope
  | some envelope => pure envelope
  | none => abandonThen permit "canonical_envelope_missing" .canonicalEnvelopeMissing

/-- The durable payload record is not the payload the caller holds. -/
def payloadBindingMismatch (durable : DurableSetValuePayloadBinding) (actionId : Uuid)
    (payload : WindowsUiaSetValueExecutionPayload) : Bool :=
  durable.actionId ≠ actionId ∨ durable.payloadRef ≠ payload.payloadRef ∨
    durable.mode ≠ payload.mode ∨ durable.payloadUtf8Len ≠ payload.utf8Bytes.length

section
variable (armed : WindowsUiaDispatchExecutionPermit) (payload : WindowsUiaSetValueExecutionPayload)
  (dispatchAttemptRef : Uuid)

/-- The dispatch request an armed permit and a payload make. -/
def setValueRequest : WindowsUiaSetValueDispatchRequest :=
  { dispatchAttemptRef, actionId := armed.actionId
    preparationJournalSequence := armed.preparationJournalSequence
    preparationReceiptRef := armed.preparation.receiptRef
    snapshotCutRef := armed.sealReceipt.elementLease.snapshotCutRef
    providerIncarnationRef := armed.sealReceipt.elementLease.providerIncarnationRef
    targetIncarnationRef := armed.sealReceipt.elementLease.targetIncarnationRef
    elementRef := armed.sealReceipt.elementLease.elementRef
    contextRequirements := armed.sealReceipt.contextRequirements, payloadRef := payload.payloadRef
    mode := payload.mode, secretUtf8 := payload.utf8Bytes }

/-- The revalidation before the executor; each failure gives the permit up. -/
def verifyCanonicalOrAbandon (sessionId : SessionId) (armed : WindowsUiaDispatchExecutionPermit) :
    Async DispatchWorld WindowsUiaSetValueExecutionError Unit := do
  let actionId := armed.actionId
  let permit := armed.dispatchPermit
  let envelope ← envelopeOrAbandon permit (← actionEnvelope actionId)
  rejectAbandoning (envelopeChanged envelope sessionId actionId armed.sealReceipt.authority = true)
    permit "canonical_envelope_changed" .canonicalEnvelopeChanged
  let current ← actionEnvelopeIsCurrent actionId
  rejectAbandoning (current = false) permit "canonical_envelope_stale" .canonicalEnvelopeStale
  let state ← recoveryState actionId
  rejectAbandoning (state ≠ some .dispatchPrepared) permit "journal_state_changed"
    (.journalStateChanged state)

/-- The request the durable payload record allows. -/
def boundSetValueRequest (binding : Option DurableSetValuePayloadBinding) :
    Async DispatchWorld WindowsUiaSetValueExecutionError WindowsUiaSetValueDispatchRequest := do
  let durable ← .ofOption binding .payloadBindingMissing
  rejectAbandoning (payloadBindingMismatch durable armed.actionId payload = true)
    armed.dispatchPermit "payload_binding_mismatch" .payloadBindingMismatch
  Async.mapError (.dispatchRequest ·.display)
    (.ofExcept (setValueRequest armed payload dispatchAttemptRef).new)

/-- The companion records and the request they allow.  Where a record cannot be
read, the payload record is missing or the request is rejected, the code returns
without giving the permit up. -/
def companionSetValueRequest :
    Async DispatchWorld WindowsUiaSetValueExecutionError WindowsUiaSetValueDispatchRequest := do
  let actionId := armed.actionId
  let permit := armed.dispatchPermit
  let operation ← Async.mapError (fun _ => .canonicalOperationMismatch) (admittedOperation actionId)
  rejectAbandoning (operation ≠ some .setValue) permit "canonical_operation_mismatch"
    .canonicalOperationMismatch
  rejectAbandoning (armed.sealReceipt.requiredPattern ≠ .value) permit
    "required_pattern_mismatch" .requiredPatternMismatch
  let binding ← Async.mapError (fun _ => .payloadBindingMismatch) (setValuePayloadBinding actionId)
  boundSetValueRequest armed payload dispatchAttemptRef binding

end

/-- The provider's receipt is not for this request. -/
def setValueReceiptMismatch (receipt : WindowsUiaSetValueDispatchReceipt)
    (request : WindowsUiaSetValueDispatchRequest) : Bool :=
  receipt.dispatchAttemptRef ≠ request.dispatchAttemptRef ∨
    receipt.actionId ≠ request.actionId ∨
    receipt.preparationJournalSequence ≠ request.preparationJournalSequence ∨
    receipt.preparationReceiptRef ≠ request.preparationReceiptRef ∨
    receipt.snapshotCutRef ≠ request.snapshotCutRef ∨
    receipt.providerIncarnationRef ≠ request.providerIncarnationRef ∨
    receipt.targetIncarnationRef ≠ request.targetIncarnationRef ∨
    receipt.elementRef ≠ request.elementRef ∨ receipt.requiredPattern ≠ .value ∨
    receipt.dispatchOperation ≠ .setValue ∨ receipt.payloadRef ≠ request.payloadRef ∨
    receipt.mode ≠ request.mode ∨ receipt.contextRequirements ≠ request.contextRequirements

/-- The final context is for another target, or does not meet the
requirements. -/
def finalContextMismatch (requirements : WindowsUiaDispatchContextRequirements)
    (armed final : WindowsUiaDispatchContextObservation) : Bool :=
  final.targetWindowHandle ≠ armed.targetWindowHandle ∨
    final.targetProcessId ≠ armed.targetProcessId ∨
    (evaluateWindowsUiaDispatchContext requirements final).isOk = false

def setValueLinearization (receipt : WindowsUiaSetValueDispatchReceipt)
    (dispatchAttemptRef : Uuid) : DispatchLinearizationReceipt :=
  { receiptRef := "windows-uia:set-value-dispatch-attempt:" ++ dispatchAttemptRef.display
    transportResult := receipt.transportResult, dispatchResult := receipt.dispatchResult }

/-- The executor's answer, or the permit given up. -/
def receiptOrAbandon (permit : DispatchExecutionPermit) :
    Except String WindowsUiaSetValueDispatchReceipt →
      Async DispatchWorld WindowsUiaSetValueExecutionError WindowsUiaSetValueDispatchReceipt
  | .ok receipt => pure receipt
  | .error message => abandonThen permit "provider_dispatch_failed" (.providerDispatch message)

/-- The one dispatch, and its durable record. -/
def dispatchSetValueOnce (codec : EntryCodec) (executor : WindowsUiaSetValueExecutor)
    (armed : WindowsUiaDispatchExecutionPermit) (request : WindowsUiaSetValueDispatchRequest)
    (io : AppendIo) :
    Async DispatchWorld WindowsUiaSetValueExecutionError
      (WindowsUiaSetValueDispatchReceipt × ConsequentialJournalEntry) := do
  let permit := armed.dispatchPermit
  let answer ← .read fun _ => executor.dispatchSetValue request
  let receipt ← receiptOrAbandon permit answer
  rejectAbandoning (setValueReceiptMismatch receipt request = true) permit
    "provider_receipt_mismatch" .providerReceiptMismatch
  rejectAbandoning (receipt.transportResult ≠ .deliveredToExecutor) permit
    "provider_transport_mismatch" .providerReceiptTransportMismatch
  rejectAbandoning (finalContextMismatch request.contextRequirements
      armed.armedContext.observation receipt.finalContext = true) permit
    "provider_final_context_mismatch" .providerFinalContextMismatch
  let linearization := setValueLinearization receipt request.dispatchAttemptRef
  let entry ← Async.mapError (.journalLinearizationFailed ·.display)
    (journalCall fun j => j.recordDispatchLinearized codec permit linearization io)
  .reject (entry.actionId ≠ request.actionId ∨
    entry.transition ≠ .dispatchLinearized linearization) .linearizationEntryMismatch
  pure (receipt, entry)

/-! ## The observation -/

/-- The snapshot revision a capture publishes: everything its reconciliation
receipt carries but the receipt's identifier. -/
structure NativeSemanticSnapshotRevision where
  receiptFields : ReconciliationSnapshotReceipt

def NativeSemanticSnapshotRevision.reconciliationReceipt
    (snapshot : NativeSemanticSnapshotRevision) (receiptId : String) :
    ReconciliationSnapshotReceipt :=
  { snapshot.receiptFields with receiptId }

/-- An active observation of a session. -/
structure AttachedObservation where
  bindingProvider : ProviderIncarnationRef
  (bindingTarget attachmentTarget : TargetIncarnationRef)

/-- What the runtime learns while it captures: its own attachment and provider,
the governor's reservation, the provider's snapshot, and the bridge's record of
it. -/
structure CaptureSurroundings where
  active : SessionId → Option AttachedObservation
  activeProvider : ProviderIncarnationRef
  reservation : Except WindowsObserveRuntimeError Unit
  snapshot : Except WindowsObserveRuntimeError NativeSemanticSnapshotRevision
  receiptUuid : Uuid
  bridgeRecord : Except WindowsObserveRuntimeError Unit

structure WindowsPostconditionObservationCapture where
  observationReceipt : ConsequentialPostconditionObservationReceipt
  snapshot : NativeSemanticSnapshotRevision

/-- What `capture_postcondition_observation_with_snapshot` establishes before it
completes the permit: the snapshot, and the receipt recorded for it. -/
def capturedSnapshot (surroundings : CaptureSurroundings)
    (permit : ConsequentialPostconditionObservationPermit) :
    Except WindowsObserveRuntimeError
      (NativeSemanticSnapshotRevision × ReconciliationSnapshotReceipt) := do
  let attached ← okOr (surroundings.active permit.sessionId) (.notAttached permit.sessionId)
  rejectIf (surroundings.activeProvider ≠ permit.providerIncarnationRef ∨
      attached.bindingProvider ≠ permit.providerIncarnationRef)
    (.provider "postcondition_observation_session_revalidation"
      "attached Windows observation provider incarnation does not match the journal permit")
  rejectIf (attached.attachmentTarget ≠ permit.targetIncarnationRef ∨
      attached.bindingTarget ≠ permit.targetIncarnationRef)
    (.provider "postcondition_observation_session_revalidation"
      "attached Windows observation target incarnation does not match the journal permit")
  surroundings.reservation
  let snapshot ← surroundings.snapshot
  rejectIf (snapshot.receiptFields.providerIncarnationRef ≠ permit.providerIncarnationRef ∨
      snapshot.receiptFields.targetIncarnationRef ≠ permit.targetIncarnationRef ∨
      snapshot.receiptFields.snapshotCutRef ≠ permit.snapshotCutRef)
    (.provider "postcondition_snapshot_validation"
      "provider returned a snapshot outside the exact journal-authorized lineage/cut")
  let receiptId := "reconcile:windows-observe:postdispatch:" ++ permit.sessionId.display ++ ":" ++
    permit.actionId.display ++ ":" ++ surroundings.receiptUuid.display
  surroundings.bridgeRecord
  .ok (snapshot, snapshot.reconciliationReceipt receiptId)

/-- `abandon_postcondition_capture`: the failure the capture returns once it has
given its permit up. -/
def abandonPostconditionCapture {α : Type} (permit : ConsequentialPostconditionObservationPermit)
    (failure : WindowsObserveRuntimeError) :
    Async DispatchWorld WindowsObserveRuntimeError α := do
  Async.mapError
    (fun error : ConsequentialPostconditionObservationError =>
      .postconditionObservationAuthority ("postcondition capture failed (" ++ failure.display ++
        "); exact observation abandonment also failed (" ++ error.display ++ ")"))
    (journalCall fun j => j.abandonPostconditionObservation permit)
  .fail failure

def capturePostconditionObservationWithSnapshot (surroundings : CaptureSurroundings)
    (permit : ConsequentialPostconditionObservationPermit) :
    Async DispatchWorld WindowsObserveRuntimeError WindowsPostconditionObservationCapture := do
  match ← .read fun _ => capturedSnapshot surroundings permit with
  | .error failure => abandonPostconditionCapture permit failure
  | .ok (snapshot, receipt) =>
      let observationReceipt ← Async.mapError
        (fun error : ConsequentialPostconditionObservationError =>
          .postconditionObservationAuthority error.display)
        (journalCall fun j => j.completePostconditionObservation permit receipt)
      pure { observationReceipt, snapshot }

/-- The observation of the dispatched action, bound to its snapshot. -/
def observeSetValue (surroundings : CaptureSurroundings) (actionId observationRef : Uuid) :
    Async DispatchWorld WindowsUiaSetValueExecutionError
      ConsequentialPostconditionObservationReceipt := do
  let permit ← Async.mapError (.observationAuthority ·.display)
    (journalCall fun j => j.beginPostconditionObservation actionId observationRef)
  let capture ← Async.mapError (.capture ·.display)
    (capturePostconditionObservationWithSnapshot surroundings permit)
  let observation := capture.observationReceipt
  let snapshot := capture.snapshot.receiptFields
  .reject (snapshot.snapshotCutRef ≠ observation.snapshotCutRef ∨
      snapshot.providerIncarnationRef ≠ observation.providerIncarnationRef ∨
      snapshot.targetIncarnationRef ≠ observation.targetIncarnationRef)
    .snapshotBindingMismatch
  pure observation

/-! ## The outcome -/

structure PayloadEqualityPostconditionContractV1 where
  mode : SetValueMode
  payloadRef : String
  deriving DecidableEq

/-- `exact_payload_equality_contract`; `decode` is the contract's
`from_contract_ref`. -/
def exactPayloadEqualityContract
    (decode : String → Option PayloadEqualityPostconditionContractV1) (refs : List String)
    (payload : WindowsUiaSetValueExecutionPayload) :
    Except WindowsUiaSetValueExecutionError String :=
  match refs with
  | [contractRef] => do
      let contract ← okOr (decode contractRef) .payloadEqualityContractMismatch
      rejectIf (contract.mode ≠ payload.mode ∨
        contract.payloadRef ≠ payload.payloadRef.display) .payloadEqualityContractMismatch
      .ok contractRef
  | _ => .error .payloadEqualityContractMismatch

/-- The equality receipt is not for this request. -/
def verificationReceiptMismatch (receipt : WindowsUiaSetValueVerificationReceipt)
    (request : WindowsUiaSetValueVerificationRequest) : Bool :=
  receipt.actionId ≠ request.actionId ∨ receipt.payloadRef ≠ request.payloadRef ∨
    receipt.mode ≠ request.mode ∨
    receipt.providerIncarnationRef ≠ request.providerIncarnationRef ∨
    receipt.targetIncarnationRef ≠ request.targetIncarnationRef ∨
    receipt.elementRef ≠ request.elementRef ∨
    receipt.observationCutRef ≠ request.observationCutRef

def WindowsUiaSetValueEquality.status :
    WindowsUiaSetValueEquality → ConsequentialPostconditionStatus
  | .«match» => .verifiedPass
  | .mismatch => .verifiedFail
  | .unknown => .unknown

/-- `reconcile_consequential_postconditions` on the shared state: the admission,
the bridge's snapshot and the record are three accesses. -/
def reconcileSetValue (codec : EntryCodec)
    (receipt : ConsequentialPostconditionReconciliationReceipt) (io : AppendIo) :
    Async DispatchWorld ConsequentialReconciliationError
      ConsequentialPostconditionReconciliationResult := do
  let journal ← .read fun w => w.journal
  let snapshots ← .read fun w => fun sessionId =>
    (w.bridge.observation sessionId).continuity.bind (·.reconciliation)
  let draft ← .ofExcept (reconciliationDraftFor snapshots journal receipt)
  let (journalEntry, postconditionReceipt) ← Async.mapError .journal
    (journalCall fun j => j.recordActionPostconditionReceipt codec draft io)
  pure
    { worldOutcome := draft.verdict.worldOutcome
      postconditionsVerified := draft.verdict.postconditionsVerified, journalEntry
      postconditionReceipt }

/-- What the execution takes from outside: fresh identifiers, and how its three
appends end. -/
structure SetValueIo where
  (dispatchAttemptRef observationRef : Uuid)
  (linearization reconciliation commit : AppendIo)

section
variable (codec : EntryCodec) (decode : String → Option PayloadEqualityPostconditionContractV1)
  (executor : WindowsUiaSetValueExecutor)

/-- The equality read, its reconciliation, and the commit it may allow. -/
def verifySetValueOutcome (sessionId : SessionId) (actionId : Uuid)
    (payload : WindowsUiaSetValueExecutionPayload) (elementRef : ProviderElementRef)
    (observation : ConsequentialPostconditionObservationReceipt)
    (dispatchJournalSequence : Nat) (io : SetValueIo) :
    Async DispatchWorld WindowsUiaSetValueExecutionError WindowsUiaVerifiedExecutionOutcome := do
  let admitted ← .read fun w => admittedEnvelopeFor w.journal.entries actionId
  let envelope ← .ofOption admitted .admittedEnvelopeMissing
  .reject (envelope.transportActionId ≠ actionId ∨ envelope.sessionId ≠ sessionId ∨
      envelope.metadata.providerIncarnationRef ≠ observation.providerIncarnationRef ∨
      envelope.metadata.targetIncarnationRef ≠ observation.targetIncarnationRef)
    .admittedEnvelopeMismatch
  let contractRef ← .ofExcept (exactPayloadEqualityContract decode
    envelope.metadata.expectedPostconditionContractRefs payload)
  let request : WindowsUiaSetValueVerificationRequest :=
    { actionId, payloadRef := payload.payloadRef, mode := payload.mode
      providerIncarnationRef := observation.providerIncarnationRef
      targetIncarnationRef := observation.targetIncarnationRef, elementRef
      observationCutRef := observation.snapshotCutRef, expectedUtf8 := payload.utf8Bytes }
  let verification ← Async.mapError .verification (external (executor.verifySetValue request))
  .reject (verificationReceiptMismatch verification request = true) .verificationReceiptMismatch
  let evidence : ConsequentialPostconditionEvidence :=
    { contractRef, status := verification.equality.status
      receiptRef := "windows-uia:set-value-equality:" ++ actionId.display ++ ":" ++
        verification.observationCutRef }
  let reconciliation ← Async.mapError (.reconciliation ·.display)
    (reconcileSetValue codec { observation, postconditions := [evidence] } io.reconciliation)
  let reconciliationJournalSequence := reconciliation.journalEntry.journalSequence
  if reconciliation.worldOutcome = .verifiedExpected ∧
      reconciliation.postconditionsVerified = true then
    let committed ← Async.mapError (.commit ·.display)
      (journalCall fun j => j.recordCommitted codec actionId io.commit)
    pure (.committed actionId reconciliation.worldOutcome dispatchJournalSequence
      reconciliationJournalSequence committed.journalSequence)
  else
    pure (.postconditionNotVerified actionId reconciliation.worldOutcome dispatchJournalSequence
      reconciliationJournalSequence)

/-- What follows the durable dispatch record. -/
def settleSetValue (surroundings : CaptureSurroundings)
    (sessionId : SessionId) (actionId : Uuid) (payload : WindowsUiaSetValueExecutionPayload)
    (receipt : WindowsUiaSetValueDispatchReceipt) (dispatchJournalSequence : Nat)
    (io : SetValueIo) :
    Async DispatchWorld WindowsUiaSetValueExecutionError WindowsUiaVerifiedExecutionOutcome := do
  let state ← recoveryState actionId
  if state = some .knownNotDispatched then
    pure (.knownNotDispatched actionId receipt.dispatchResult dispatchJournalSequence)
  else do
    .reject (state ≠ some .possiblyDispatched) (.journalStateChanged state)
    let observation ← observeSetValue surroundings actionId io.observationRef
    verifySetValueOutcome codec decode executor sessionId actionId payload receipt.elementRef
      observation dispatchJournalSequence io

def executeArmedUiaSetValueDispatch (surroundings : CaptureSurroundings)
    (sessionId : SessionId) (armed : WindowsUiaDispatchExecutionPermit)
    (payload : WindowsUiaSetValueExecutionPayload) (io : SetValueIo) :
    Async DispatchWorld WindowsUiaSetValueExecutionError WindowsUiaVerifiedExecutionOutcome := do
  verifyCanonicalOrAbandon sessionId armed
  let request ← companionSetValueRequest armed payload io.dispatchAttemptRef
  let (receipt, entry) ← dispatchSetValueOnce codec executor armed request io.linearization
  settleSetValue codec decode executor surroundings sessionId armed.actionId payload receipt
    entry.journalSequence io

end

end Localview
