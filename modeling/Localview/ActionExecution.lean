import Localview.SetValueExecution

/-! # Executing a verified canonical action

`execute_verified_canonical_uia_action`
(`windows-observe-runtime/src/verified_action_coordinator.rs`) composes the
stages of one attempt: preflight and seal, PREPARED, the second look at the
context, the one provider execution (`execution_arm.rs`), and the verification of
its outcome (`verified_execution.rs`).

What the attempt takes from outside is one record.  Beside its result each
function returns the calls it made to the provider's executor, with the state
each was made in.
-/
namespace Localview
open EarlyReturn AsyncState

/-! ## The provider's execution -/

/-- What the provider is asked to do. -/
inductive WindowsUiaPatternDispatchOperation
  | invoke
  | select
  | toggle
  | expand
  | collapse
  deriving DecidableEq

structure WindowsUiaProviderExecutionRequest where
  (dispatchAttemptRef actionId : Uuid)
  preparationJournalSequence : Nat
  (preparationReceiptRef snapshotCutRef : String)
  providerIncarnationRef : ProviderIncarnationRef
  targetIncarnationRef : TargetIncarnationRef
  elementRef : ProviderElementRef
  requiredPattern : WindowsUiaPattern
  dispatchOperation : WindowsUiaPatternDispatchOperation
  contextRequirements : WindowsUiaDispatchContextRequirements
  deriving DecidableEq

/-- What the provider answers: the request again, and what became of it. -/
structure WindowsUiaProviderExecutionReceipt extends WindowsUiaProviderExecutionRequest where
  transportResult : TransportResult
  dispatchResult : DispatchResult

/-- The provider's executor; its errors are their display. -/
abbrev WindowsUiaDispatchExecutor :=
  WindowsUiaProviderExecutionRequest → Except String WindowsUiaProviderExecutionReceipt

/-- One call to the executor, and the state it was made in. -/
structure ExecutorCall where
  request : WindowsUiaProviderExecutionRequest
  world : DispatchWorld

/-- The executor calls a function made, however it ended. -/
def executorCalls {ε α : Type} :
    Except (ε × List ExecutorCall) (α × List ExecutorCall) → List ExecutorCall
  | .ok (_, calls) => calls
  | .error (_, calls) => calls

def providerDispatchOperation :
    CanonicalActionOperation → WindowsUiaPattern → Option WindowsUiaPatternDispatchOperation
  | .activate, .invoke => some .invoke
  | .select, .selectionItem => some .select
  | .toggle, .toggle => some .toggle
  | .expand, .expandCollapse => some .expand
  | .collapse, .expandCollapse => some .collapse
  | _, _ => none

def providerReceiptMatchesRequest (receipt : WindowsUiaProviderExecutionReceipt)
    (request : WindowsUiaProviderExecutionRequest) : Bool :=
  receipt.toWindowsUiaProviderExecutionRequest = request

/-- Why a dispatch is not carried out. -/
inductive WindowsUiaDispatchExecutionCoordinatorError
  | canonicalEnvelopeMissingBeforeExecutor
  | canonicalEnvelopeChangedBeforeExecutor
  | canonicalEnvelopeStaleBeforeExecutor
  | journalStateChangedBeforeExecutor (state : Option ConsequentialRecoveryState)
  | canonicalOperationMissingBeforeExecutor
  | canonicalOperationBindingInvalidBeforeExecutor (message : String)
  | canonicalOperationProviderVerbMismatch (canonical : CanonicalActionOperation)
      (requiredPattern : WindowsUiaPattern)
  | providerExecutionFailed (message : String)
  | providerReceiptMismatch
  | providerReceiptTransportMismatch
  | executionAuthorityAbandonmentFailed (stage message : String)
  | journalLinearizationFailed (message : String)
  | linearizationEntryMismatch

structure WindowsUiaDispatchExecutionResult where
  providerReceipt : WindowsUiaProviderExecutionReceipt
  journalEntry : ConsequentialJournalEntry

def beforeExecutorErrors : CanonicalCheckErrors WindowsUiaDispatchExecutionCoordinatorError :=
  { missing := .canonicalEnvelopeMissingBeforeExecutor
    changed := .canonicalEnvelopeChangedBeforeExecutor
    stale := .canonicalEnvelopeStaleBeforeExecutor
    journalStateChanged := .journalStateChangedBeforeExecutor }

/-- Give the permit up, then return the error. -/
def abandonExecution {α : Type} (permit : DispatchExecutionPermit) (stage : String)
    (e : WindowsUiaDispatchExecutionCoordinatorError) :
    Async DispatchWorld WindowsUiaDispatchExecutionCoordinatorError α := do
  Async.mapError (fun error => .executionAuthorityAbandonmentFailed stage error.display)
    (journalCall fun j => j.abandonDispatchExecution permit)
  .fail e

/-- The durable operation's verb, which the sealed pattern must agree with. -/
def providerVerb (armed : WindowsUiaDispatchExecutionPermit) :
    Except ConsequentialJournalError (Option CanonicalActionOperation) →
      Async DispatchWorld WindowsUiaDispatchExecutionCoordinatorError
        WindowsUiaPatternDispatchOperation
  | .ok (some operation) =>
      let pattern := armed.sealReceipt.requiredPattern
      match providerDispatchOperation operation pattern with
      | some verb => pure verb
      | none =>
          abandonExecution armed.dispatchPermit "canonical_operation_provider_verb_mismatch"
            (.canonicalOperationProviderVerbMismatch operation pattern)
  | .ok none =>
      abandonExecution armed.dispatchPermit "canonical_operation_missing_before_executor"
        .canonicalOperationMissingBeforeExecutor
  | .error error =>
      abandonExecution armed.dispatchPermit "canonical_operation_invalid_before_executor"
        (.canonicalOperationBindingInvalidBeforeExecutor error.display)

/-- The request an armed permit makes for a verb. -/
def executionRequest (armed : WindowsUiaDispatchExecutionPermit) (dispatchAttemptRef : Uuid)
    (dispatchOperation : WindowsUiaPatternDispatchOperation) :
    WindowsUiaProviderExecutionRequest :=
  { dispatchAttemptRef, actionId := armed.actionId
    preparationJournalSequence := armed.preparationJournalSequence
    preparationReceiptRef := armed.preparation.receiptRef
    snapshotCutRef := armed.sealReceipt.elementLease.snapshotCutRef
    providerIncarnationRef := armed.sealReceipt.elementLease.providerIncarnationRef
    targetIncarnationRef := armed.sealReceipt.elementLease.targetIncarnationRef
    elementRef := armed.sealReceipt.elementLease.elementRef
    requiredPattern := armed.sealReceipt.requiredPattern, dispatchOperation
    contextRequirements := armed.sealReceipt.contextRequirements }

/-- Everything `execute_armed_uia_dispatch` does before it calls the executor. -/
def armedExecutionRequest (sessionId : SessionId) (armed : WindowsUiaDispatchExecutionPermit)
    (dispatchAttemptRef : Uuid) :
    Async DispatchWorld WindowsUiaDispatchExecutionCoordinatorError
      WindowsUiaProviderExecutionRequest := do
  match ← Async.attempt (verifyCanonicalPrepared beforeExecutorErrors sessionId armed.actionId
      armed.sealReceipt.authority) with
  | .error error => abandonExecution armed.dispatchPermit "pre_executor_revalidation_failed" error
  | .ok () => do
      let operation ← Async.attempt (admittedOperation armed.actionId)
      let verb ← providerVerb armed operation
      pure (executionRequest armed dispatchAttemptRef verb)

/-- The provider's answer, if it is for the request and was delivered. -/
def acceptedReceipt (permit : DispatchExecutionPermit)
    (request : WindowsUiaProviderExecutionRequest) :
    Except String WindowsUiaProviderExecutionReceipt →
      Async DispatchWorld WindowsUiaDispatchExecutionCoordinatorError
        WindowsUiaProviderExecutionReceipt
  | .error message =>
      abandonExecution permit "provider_execution_failed" (.providerExecutionFailed message)
  | .ok receipt =>
      if providerReceiptMatchesRequest receipt request = false then
        abandonExecution permit "provider_receipt_mismatch" .providerReceiptMismatch
      else if receipt.transportResult ≠ .deliveredToExecutor then
        abandonExecution permit "provider_receipt_transport_mismatch"
          .providerReceiptTransportMismatch
      else pure receipt

def dispatchLinearization (receipt : WindowsUiaProviderExecutionReceipt) :
    DispatchLinearizationReceipt :=
  { receiptRef := "windows-uia:dispatch-attempt:" ++ receipt.dispatchAttemptRef.display
    transportResult := receipt.transportResult, dispatchResult := receipt.dispatchResult }

section
variable (codec : EntryCodec)

/-- The durable record of an accepted receipt. -/
def linearizeExecution (armed : WindowsUiaDispatchExecutionPermit)
    (providerReceipt : WindowsUiaProviderExecutionReceipt) (io : AppendIo) :
    Async DispatchWorld WindowsUiaDispatchExecutionCoordinatorError
      WindowsUiaDispatchExecutionResult := do
  let linearization := dispatchLinearization providerReceipt
  let journalEntry ← Async.mapError (.journalLinearizationFailed ·.display)
    (journalCall fun j => j.recordDispatchLinearized codec armed.dispatchPermit linearization io)
  .reject (journalEntry.actionId ≠ armed.actionId ∨
    journalEntry.transition ≠ .dispatchLinearized linearization) .linearizationEntryMismatch
  pure { providerReceipt, journalEntry }

def executeArmedUiaDispatch (sessionId : SessionId)
    (armed : WindowsUiaDispatchExecutionPermit) (executor : WindowsUiaDispatchExecutor)
    (dispatchAttemptRef : Uuid) (io : AppendIo) :
    Async DispatchWorld (WindowsUiaDispatchExecutionCoordinatorError × List ExecutorCall)
      (WindowsUiaDispatchExecutionResult × List ExecutorCall) := do
  let request ← Async.mapError (·, []) (armedExecutionRequest sessionId armed dispatchAttemptRef)
  let (answer, call) ← .read fun world => (executor request, { request, world : ExecutorCall })
  let receipt ← Async.mapError (·, [call]) (acceptedReceipt armed.dispatchPermit request answer)
  let result ← Async.mapError (·, [call]) (linearizeExecution codec armed receipt io)
  pure (result, [call])

/-! ## The verification of its outcome -/

/-- Why an execution is not verified. -/
inductive WindowsUiaVerifiedExecutionError
  | dispatch (error : WindowsUiaDispatchExecutionCoordinatorError)
  | observationAuthority (message : String)
  | capture (message : String)
  | admittedEnvelopeMissing (actionId : Uuid)
  | admittedEnvelopeMismatch
  | snapshotBindingMismatch
  | verifier (message : String)
  | reconciliation (message : String)
  | commit (message : String)
  | unexpectedRecoveryState (state : Option ConsequentialRecoveryState)

/-- The predicate authority: it sees the action, its declared contracts and the
captured snapshot; its errors are their display. -/
abbrev WindowsUiaPostconditionVerifier :=
  Uuid → List String → NativeSemanticSnapshotRevision →
    Except String (List ConsequentialPostconditionEvidence)

structure WindowsUiaDispatchVerificationContext where
  actionId : Uuid
  dispatchResult : DispatchResult
  dispatchJournalSequence : Nat

/-- How the appends after an execution permit end, and the identifier its
observation draws. -/
structure VerificationIo where
  observationRef : Uuid
  (reconciliation commit : AppendIo)

/-- The fresh observation of a dispatched action, with the snapshot it is bound
to. -/
def observeDispatched (surroundings : CaptureSurroundings) (actionId observationRef : Uuid) :
    Async DispatchWorld WindowsUiaVerifiedExecutionError WindowsPostconditionObservationCapture := do
  let permit ← Async.mapError (.observationAuthority ·.display)
    (journalCall fun j => j.beginPostconditionObservation actionId observationRef)
  let capture ← Async.mapError (.capture ·.display)
    (capturePostconditionObservationWithSnapshot surroundings permit)
  let observation := capture.observationReceipt
  let snapshot := capture.snapshot.receiptFields
  .reject (snapshot.snapshotCutRef ≠ observation.snapshotCutRef ∨
      snapshot.providerIncarnationRef ≠ observation.providerIncarnationRef ∨
      snapshot.targetIncarnationRef ≠ observation.targetIncarnationRef)
    .snapshotBindingMismatch
  pure capture

/-- The evidence the verifier finds in a capture. -/
def verifierEvidence (verifier : WindowsUiaPostconditionVerifier) (sessionId : SessionId)
    (actionId : Uuid) (snapshot : NativeSemanticSnapshotRevision) :
    Async DispatchWorld WindowsUiaVerifiedExecutionError
      (List ConsequentialPostconditionEvidence) := do
  let admitted ← .read fun w => admittedEnvelopeFor w.journal.entries actionId
  let envelope ← .ofOption admitted (.admittedEnvelopeMissing actionId)
  .reject (envelope.transportActionId ≠ actionId ∨ envelope.sessionId ≠ sessionId)
    .admittedEnvelopeMismatch
  Async.mapError .verifier (.ofExcept
    (verifier actionId envelope.metadata.expectedPostconditionContractRefs snapshot))

/-- What a recorded reconciliation leads to: a commit, if everything was
verified. -/
def commitVerified (dispatch : WindowsUiaDispatchVerificationContext)
    (reconciliation : ConsequentialPostconditionReconciliationResult) (io : AppendIo) :
    Async DispatchWorld WindowsUiaVerifiedExecutionError WindowsUiaVerifiedExecutionOutcome := do
  let reconciliationJournalSequence := reconciliation.journalEntry.journalSequence
  if reconciliation.worldOutcome = .verifiedExpected ∧
      reconciliation.postconditionsVerified = true then
    let commit ← Async.mapError (.commit ·.display)
      (journalCall fun j => j.recordCommitted codec dispatch.actionId io)
    pure (.committed dispatch.actionId reconciliation.worldOutcome
      dispatch.dispatchJournalSequence reconciliationJournalSequence commit.journalSequence)
  else
    pure (.postconditionNotVerified dispatch.actionId reconciliation.worldOutcome
      dispatch.dispatchJournalSequence reconciliationJournalSequence)

def completeUiaDispatchVerification (surroundings : CaptureSurroundings)
    (verifier : WindowsUiaPostconditionVerifier) (sessionId : SessionId)
    (dispatch : WindowsUiaDispatchVerificationContext) (io : VerificationIo) :
    Async DispatchWorld WindowsUiaVerifiedExecutionError WindowsUiaVerifiedExecutionOutcome := do
  let actionId := dispatch.actionId
  let state ← recoveryState actionId
  if state = some .knownNotDispatched then
    pure (.knownNotDispatched actionId dispatch.dispatchResult dispatch.dispatchJournalSequence)
  else do
    .reject (state ≠ some .possiblyDispatched) (.unexpectedRecoveryState state)
    let capture ← observeDispatched surroundings actionId io.observationRef
    let postconditions ← verifierEvidence verifier sessionId actionId capture.snapshot
    let reconciliation ← Async.mapError (.reconciliation ·.display)
      (reconcileSetValue codec
        { observation := capture.observationReceipt, postconditions } io.reconciliation)
    commitVerified codec dispatch reconciliation io.commit

/-- What an attempt takes from outside. -/
structure VerifiedActionSurroundings where
  preflight : Except String Unit
  sealed : Except WindowsUiaDispatchSealError WindowsUiaDispatchSealReceipt
  preparation : PreparationIo
  revalidated : WindowsUiaPreparedDispatchReceipt →
    Except WindowsObserveRuntimeError WindowsUiaBoundDispatchContextReceipt
  (permitRef dispatchAttemptRef : Uuid)
  executor : WindowsUiaDispatchExecutor
  linearization : AppendIo
  capture : CaptureSurroundings
  verifier : WindowsUiaPostconditionVerifier
  verification : VerificationIo

def executeArmedUiaDispatchVerified (sessionId : SessionId)
    (armed : WindowsUiaDispatchExecutionPermit) (surroundings : VerifiedActionSurroundings) :
    Async DispatchWorld (WindowsUiaVerifiedExecutionError × List ExecutorCall)
      (WindowsUiaVerifiedExecutionOutcome × List ExecutorCall) := do
  let (dispatch, calls) ← Async.mapError (fun (error, calls) => (.dispatch error, calls))
    (executeArmedUiaDispatch codec sessionId armed surroundings.executor
      surroundings.dispatchAttemptRef surroundings.linearization)
  let outcome ← Async.mapError (·, calls)
    (completeUiaDispatchVerification codec surroundings.capture surroundings.verifier sessionId
      { actionId := dispatch.providerReceipt.actionId
        dispatchResult := dispatch.providerReceipt.dispatchResult
        dispatchJournalSequence := dispatch.journalEntry.journalSequence }
      surroundings.verification)
  pure (outcome, calls)

/-- The stage at which a verified action stops. -/
inductive WindowsUiaVerifiedActionCoordinatorError
  | preflight (message : String)
  | prepare (error : WindowsUiaPreparedDispatchError)
  | arm (error : WindowsUiaDispatchExecutionArmError)
  | execute (error : WindowsUiaVerifiedExecutionError)

def executeVerifiedCanonicalUiaAction (sessionId : SessionId)
    (actionId : Uuid) (surroundings : VerifiedActionSurroundings) :
    Async DispatchWorld (WindowsUiaVerifiedActionCoordinatorError × List ExecutorCall)
      (WindowsUiaVerifiedExecutionOutcome × List ExecutorCall) := do
  Async.mapError (fun message => (.preflight message, []))
    (external surroundings.preflight)
  let prepared ← Async.mapError (fun error => (.prepare error, []))
    (prepareUiaDispatch codec sessionId actionId surroundings.sealed surroundings.preparation)
  let armed ← Async.mapError (fun error => (.arm error, []))
    (armUiaDispatchExecution sessionId prepared (surroundings.revalidated prepared)
      surroundings.permitRef)
  Async.mapError (fun (error, calls) => (.execute error, calls))
    (executeArmedUiaDispatchVerified codec sessionId armed surroundings)

end

end Localview
