import Localview.AsyncState
import Localview.ConsequentialJournal
import Localview.LiveBridge

/-! # Preparing and arming a Windows UIA dispatch

`prepare_uia_dispatch` (`windows-observe-runtime/src/prepared_dispatch.rs`) turns
a sealed dispatch into a durable PREPARED record and its one-shot capability;
`arm_uia_dispatch_execution` (`execution_arm.rs`) turns that capability into an
execution permit.  Between their accesses to the bridge and the journal both
look again at what they rely on, and return early where it has changed.

The seal ends before PREPARED: what it returned is an argument here.  So is what
the runtime's provider observed of the volatile context.
-/
namespace Localview
open EarlyReturn AsyncState

/-! ## What a dispatch is sealed over -/

/-- Whether a virtual element is there yet. -/
inductive ProviderElementRealization
  | discoveredVirtual
  | realizationRequired
  | realizing
  | realizedCurrent
  | realizationFailed
  | staleAfterRealization
  deriving DecidableEq

structure ProviderElementRef where
  providerFamily : String
  providerIncarnationRef : ProviderIncarnationRef
  targetIncarnationRef : TargetIncarnationRef
  opaqueProviderElementId : String
  semanticLocatorHints : List String
  parentSurfaceRef : Option String
  acquisitionCutRef : String
  realization : ProviderElementRealization
  lifetimeProfileRevision : String
  deriving DecidableEq

/-- A control pattern of an element. -/
inductive WindowsUiaPattern
  | invoke
  | selectionItem
  | value
  | toggle
  | expandCollapse
  | scrollItem
  | virtualizedItem
  deriving DecidableEq

/-- The element an action was checked on. -/
structure WindowsUiaElementLeaseReceipt where
  snapshotCutRef : String
  providerIncarnationRef : ProviderIncarnationRef
  targetIncarnationRef : TargetIncarnationRef
  elementRef : ProviderElementRef

/-- Which volatile Windows facts must still be true at the dispatch boundary. -/
structure WindowsUiaDispatchContextRequirements where
  (requireForegroundTarget requireExactElementFocus requireNoModalBlocker : Bool)
  deriving DecidableEq

/-- Point-in-time facts observed from Win32/UIA. -/
structure WindowsUiaDispatchContextObservation where
  (targetWindowHandle targetProcessId : Nat)
  (foregroundWindowHandle foregroundProcessId : Option Nat)
  exactElementFocused : Option Bool
  modalBlockerWindowHandle : Option Nat

structure WindowsUiaBoundDispatchContextReceipt where
  requirements : WindowsUiaDispatchContextRequirements
  snapshotCutRef : String
  providerIncarnationRef : ProviderIncarnationRef
  targetIncarnationRef : TargetIncarnationRef
  elementRef : ProviderElementRef
  observation : WindowsUiaDispatchContextObservation

/-- What the seal established, as far as preparing, arming and executing read
it. -/
structure WindowsUiaDispatchSealReceipt where
  authority : ActionEnvelopeMetadata
  authorizationJournalSequence : Nat
  elementLease : WindowsUiaElementLeaseReceipt
  requiredPattern : WindowsUiaPattern
  contextRequirements : WindowsUiaDispatchContextRequirements

/-- What in the context forbids a dispatch. -/
inductive WindowsUiaDispatchContextBlocker
  | invalidTargetIdentity
  | foregroundUnavailable
  | foregroundWindowMismatch (expected actual : Nat)
  | foregroundProcessUnavailable
  | foregroundProcessMismatch (expected actual : Nat)
  | focusUnavailable
  | exactElementFocusMismatch
  | modalBlockerPresent (windowHandle : Nat)

/-- The foreground part of the evaluator. -/
def evaluateForeground (observation : WindowsUiaDispatchContextObservation) :
    Except WindowsUiaDispatchContextBlocker Unit := do
  let foregroundWindow ← okOr observation.foregroundWindowHandle .foregroundUnavailable
  rejectIf (foregroundWindow ≠ observation.targetWindowHandle)
    (.foregroundWindowMismatch observation.targetWindowHandle foregroundWindow)
  let foregroundProcess ← okOr observation.foregroundProcessId .foregroundProcessUnavailable
  rejectIf (foregroundProcess ≠ observation.targetProcessId)
    (.foregroundProcessMismatch observation.targetProcessId foregroundProcess)

/-- The focus part of the evaluator. -/
def evaluateFocus : Option Bool → Except WindowsUiaDispatchContextBlocker Unit
  | some true => .ok ()
  | some false => .error .exactElementFocusMismatch
  | none => .error .focusUnavailable

/-- The modal part of the evaluator. -/
def evaluateModal : Option Nat → Except WindowsUiaDispatchContextBlocker Unit
  | some windowHandle => .error (.modalBlockerPresent windowHandle)
  | none => .ok ()

def evaluateWindowsUiaDispatchContext (requirements : WindowsUiaDispatchContextRequirements)
    (observation : WindowsUiaDispatchContextObservation) :
    Except WindowsUiaDispatchContextBlocker Unit := do
  rejectIf (observation.targetWindowHandle = 0 ∨ observation.targetProcessId = 0)
    .invalidTargetIdentity
  if requirements.requireForegroundTarget then evaluateForeground observation else .ok ()
  if requirements.requireExactElementFocus then
    evaluateFocus observation.exactElementFocused else .ok ()
  if requirements.requireNoModalBlocker then
    evaluateModal observation.modalBlockerWindowHandle else .ok ()

/-! ## The shared state -/

/-- The companion record of an admitted intent's operation. -/
structure DurableCanonicalActionOperationBinding where
  actionId : Uuid
  intentJournalSequence : Nat
  operation : CanonicalActionOperation

/-- Whether a value is replaced or cleared. -/
inductive SetValueMode
  | replaceValue
  | clearValue
  deriving DecidableEq

/-- The companion record of an admitted SetValue payload. -/
structure DurableSetValuePayloadBinding where
  actionId : Uuid
  intentJournalSequence : Nat
  payloadRef : Uuid
  mode : SetValueMode
  payloadUtf8Len : Nat
  commitmentAlgorithm : String
  commitmentDigest : Bytes

/-- The state a dispatch attempt shares with every other task: the journal, the
bridge, and what reading the companion files yields. -/
structure DispatchWorld where
  journal : ConsequentialJournal
  bridge : LiveBridge
  operationFile :
    Uuid → Except ConsequentialJournalError (Option DurableCanonicalActionOperationBinding)
  setValuePayloadFile :
    Uuid → Except ConsequentialJournalError (Option DurableSetValuePayloadBinding)

section
variable {ε : Type}

def journalCall {α : Type} (call : ConsequentialJournal → Except ε α × ConsequentialJournal) :
    Async DispatchWorld ε α :=
  .access fun w =>
    let (result, journal) := call w.journal
    (result, { w with journal })

def actionEnvelope (actionId : Uuid) : Async DispatchWorld ε (Option CanonicalActionEnvelope) :=
  .read fun w => w.bridge.actionEnvelopes actionId

/-- The incarnations a session's observation is bound to are the envelope's. -/
def envelopeMatchesContinuity (bridge : LiveBridge) (envelope : CanonicalActionEnvelope) : Bool :=
  match (bridge.observation envelope.sessionId).continuity with
  | none => false
  | some state =>
      envelope.metadata.providerIncarnationRef = state.providerIncarnationRef ∧
        envelope.metadata.targetIncarnationRef = state.targetIncarnationRef

/-- `action_envelope_is_current`: two accesses, the envelope and then the
continuity of its session. -/
def actionEnvelopeIsCurrent (actionId : Uuid) : Async DispatchWorld ε Bool := do
  match ← actionEnvelope actionId with
  | none => pure false
  | some envelope => .read fun w => envelopeMatchesContinuity w.bridge envelope

def recoveryState (actionId : Uuid) :
    Async DispatchWorld ε (Option ConsequentialRecoveryState) :=
  .read fun w => recoveryStateFor w.journal.entries actionId

/-- What a revalidation returns where it finds the action changed. -/
structure CanonicalCheckErrors (ε : Type) where
  (missing changed stale : ε)
  journalStateChanged : Option ConsequentialRecoveryState → ε

/-- The envelope is not the one the dispatch was sealed under. -/
def envelopeChanged (envelope : CanonicalActionEnvelope) (sessionId : SessionId)
    (actionId : Uuid) (authority : ActionEnvelopeMetadata) : Bool :=
  envelope.sessionId ≠ sessionId ∨ envelope.transportActionId ≠ actionId ∨
    envelope.metadata ≠ authority

/-- The revalidation every stage makes after PREPARED: the canonical envelope is
there, unchanged and current, and the journal still stands at PREPARED. -/
def verifyCanonicalPrepared (errors : CanonicalCheckErrors ε) (sessionId : SessionId)
    (actionId : Uuid) (authority : ActionEnvelopeMetadata) : Async DispatchWorld ε Unit := do
  let envelope ← .ofOption (← actionEnvelope actionId) errors.missing
  .reject (envelopeChanged envelope sessionId actionId authority = true) errors.changed
  let current ← actionEnvelopeIsCurrent actionId
  .reject (current = false) errors.stale
  let state ← recoveryState actionId
  .reject (state ≠ some .dispatchPrepared) (errors.journalStateChanged state)

end

/-! ## Preparing -/

/-- What `seal_uia_dispatch` failed with; it fails before PREPARED. -/
structure WindowsUiaDispatchSealError where
  message : String

/-- Why a dispatch is not prepared. -/
inductive WindowsUiaPreparedDispatchError
  | «seal» (error : WindowsUiaDispatchSealError)
  | journalWriteFailed (message : String)
  | preparationEntryMismatch
  | canonicalEnvelopeMissingAfterPrepare
  | canonicalEnvelopeChangedAfterPrepare
  | canonicalEnvelopeStaleAfterPrepare
  | journalStateChangedAfterPrepare (state : Option ConsequentialRecoveryState)

/-- Proof that this process sealed the dispatch and made PREPARED durable. -/
structure WindowsUiaPreparedDispatchReceipt where
  actionId : Uuid
  sealReceipt : WindowsUiaDispatchSealReceipt
  preparation : DispatchPreparationReceipt
  preparationJournalSequence : Nat
  dispatchCapability : DispatchPreparedCapability

/-- The identifiers and the append I/O a preparation takes from outside. -/
structure PreparationIo where
  (receiptUuid capabilityRef : Uuid)
  append : AppendIo

def preparationReceipt (actionId receiptUuid : Uuid) (sealReceipt : WindowsUiaDispatchSealReceipt) :
    DispatchPreparationReceipt :=
  { receiptRef :=
      "windows-uia:dispatch-prepared:" ++ actionId.display ++ ":" ++ receiptUuid.display
    authorizationJournalSequence := sealReceipt.authorizationJournalSequence
    preconditionSnapshotCutRef := sealReceipt.authority.preconditionSnapshotCutRef
    providerIncarnationRef := sealReceipt.authority.providerIncarnationRef
    targetIncarnationRef := sealReceipt.authority.targetIncarnationRef }

def afterPrepareErrors : CanonicalCheckErrors WindowsUiaPreparedDispatchError :=
  { missing := .canonicalEnvelopeMissingAfterPrepare
    changed := .canonicalEnvelopeChangedAfterPrepare, stale := .canonicalEnvelopeStaleAfterPrepare
    journalStateChanged := .journalStateChangedAfterPrepare }

/-- `record_dispatch_prepared` as a preparation calls it. -/
def recordPreparation (codec : EntryCodec) (actionId : Uuid)
    (preparation : DispatchPreparationReceipt) (io : PreparationIo) :
    Async DispatchWorld ConsequentialJournalError DispatchPreparedAdmission :=
  journalCall fun j => j.recordDispatchPrepared codec actionId preparation io.capabilityRef io.append

def prepareUiaDispatch (codec : EntryCodec) (sessionId : SessionId) (actionId : Uuid)
    (sealed : Except WindowsUiaDispatchSealError WindowsUiaDispatchSealReceipt)
    (io : PreparationIo) :
    Async DispatchWorld WindowsUiaPreparedDispatchError WindowsUiaPreparedDispatchReceipt := do
  let sealReceipt ← Async.mapError .«seal» (.ofExcept sealed)
  let preparation := preparationReceipt actionId io.receiptUuid sealReceipt
  let admission ← Async.mapError (.journalWriteFailed ·.display)
    (recordPreparation codec actionId preparation io)
  .reject (admission.entry.transition ≠ .dispatchPrepared preparation) .preparationEntryMismatch
  verifyCanonicalPrepared afterPrepareErrors sessionId actionId sealReceipt.authority
  pure
    { actionId, sealReceipt, preparation
      preparationJournalSequence := admission.entry.journalSequence
      dispatchCapability := admission.capability }

/-! ## Arming -/

/-- The failures of the runtime the attempt passes on; `other` is one it only
displays. -/
inductive WindowsObserveRuntimeError
  | notAttached (sessionId : SessionId)
  | provider (operation message : String)
  | postconditionObservationAuthority (message : String)
  | other (message : String)

/-- Why a prepared dispatch is not armed. -/
inductive WindowsUiaDispatchExecutionArmError
  | canonicalEnvelopeMissingBeforeArm
  | canonicalEnvelopeChangedBeforeArm
  | canonicalEnvelopeStaleBeforeArm
  | journalStateChangedBeforeArm (state : Option ConsequentialRecoveryState)
  | contextProvider (error : WindowsObserveRuntimeError)
  | contextReceiptMismatch
  | contextBlocked (blocker : WindowsUiaDispatchContextBlocker)
  | canonicalEnvelopeMissingAfterContext
  | canonicalEnvelopeChangedAfterContext
  | canonicalEnvelopeStaleAfterContext
  | journalStateChangedAfterContext (state : Option ConsequentialRecoveryState)
  | beginDispatchFailed (message : String)
  | dispatchPermitMismatch

/-- One-shot Windows execution authority. -/
structure WindowsUiaDispatchExecutionPermit where
  actionId : Uuid
  sealReceipt : WindowsUiaDispatchSealReceipt
  preparation : DispatchPreparationReceipt
  preparationJournalSequence : Nat
  armedContext : WindowsUiaBoundDispatchContextReceipt
  dispatchPermit : DispatchExecutionPermit

def beforeArmErrors : CanonicalCheckErrors WindowsUiaDispatchExecutionArmError :=
  { missing := .canonicalEnvelopeMissingBeforeArm, changed := .canonicalEnvelopeChangedBeforeArm
    stale := .canonicalEnvelopeStaleBeforeArm
    journalStateChanged := .journalStateChangedBeforeArm }

def afterContextErrors : CanonicalCheckErrors WindowsUiaDispatchExecutionArmError :=
  { missing := .canonicalEnvelopeMissingAfterContext
    changed := .canonicalEnvelopeChangedAfterContext, stale := .canonicalEnvelopeStaleAfterContext
    journalStateChanged := .journalStateChangedAfterContext }

def contextMatchesPreparedLease (lease : WindowsUiaElementLeaseReceipt)
    (requirements : WindowsUiaDispatchContextRequirements)
    (context : WindowsUiaBoundDispatchContextReceipt) : Bool :=
  context.requirements = requirements ∧ context.snapshotCutRef = lease.snapshotCutRef ∧
    context.providerIncarnationRef = lease.providerIncarnationRef ∧
    context.targetIncarnationRef = lease.targetIncarnationRef ∧
    context.elementRef = lease.elementRef

/-- A call outside the shared state; the other tasks run meanwhile. -/
def external {ε α : Type} (result : Except ε α) : Async DispatchWorld ε α :=
  .access fun w => (result, w)

/-- The context an arming relies on: observed between two revalidations of the
action, for the retained lease and the sealed requirements, and not blocked. -/
def revalidatedContext (sessionId : SessionId) (prepared : WindowsUiaPreparedDispatchReceipt)
    (revalidated : Except WindowsObserveRuntimeError WindowsUiaBoundDispatchContextReceipt) :
    Async DispatchWorld WindowsUiaDispatchExecutionArmError
      WindowsUiaBoundDispatchContextReceipt := do
  let authority := prepared.sealReceipt.authority
  let requirements := prepared.sealReceipt.contextRequirements
  verifyCanonicalPrepared beforeArmErrors sessionId prepared.actionId authority
  let context ← Async.mapError .contextProvider (external revalidated)
  .reject
    (contextMatchesPreparedLease prepared.sealReceipt.elementLease requirements context = false)
    .contextReceiptMismatch
  Async.mapError .contextBlocked
    (.ofExcept (evaluateWindowsUiaDispatchContext requirements context.observation))
  verifyCanonicalPrepared afterContextErrors sessionId prepared.actionId authority
  pure context

/-- The end of an arming: the capability consumed for its permit. -/
def beginArmed (prepared : WindowsUiaPreparedDispatchReceipt)
    (armedContext : WindowsUiaBoundDispatchContextReceipt) (permitRef : Uuid) :
    Async DispatchWorld WindowsUiaDispatchExecutionArmError WindowsUiaDispatchExecutionPermit := do
  let dispatchPermit ← Async.mapError (.beginDispatchFailed ·.display)
    (journalCall fun j => j.beginDispatch prepared.dispatchCapability permitRef)
  .reject (dispatchPermit.actionId ≠ prepared.actionId ∨
      dispatchPermit.preparationJournalSequence ≠ prepared.preparationJournalSequence)
    .dispatchPermitMismatch
  pure
    { actionId := prepared.actionId, sealReceipt := prepared.sealReceipt
      preparation := prepared.preparation
      preparationJournalSequence := prepared.preparationJournalSequence, armedContext
      dispatchPermit }

/-- `arm_uia_dispatch_execution`; `revalidated` is what the provider observes of
the context it is asked about. -/
def armUiaDispatchExecution (sessionId : SessionId) (prepared : WindowsUiaPreparedDispatchReceipt)
    (revalidated : Except WindowsObserveRuntimeError WindowsUiaBoundDispatchContextReceipt)
    (permitRef : Uuid) :
    Async DispatchWorld WindowsUiaDispatchExecutionArmError WindowsUiaDispatchExecutionPermit := do
  let armedContext ← revalidatedContext sessionId prepared revalidated
  beginArmed prepared armedContext permitRef

end Localview
