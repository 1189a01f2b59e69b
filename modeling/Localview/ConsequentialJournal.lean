import Localview.JournalFile

/-! # The consequential journal

One journal instance: the entries it acknowledged, the sequence it hands out
next, its three maps of process-local grants, and the file behind it.  Every
call runs under the instance's lock, so a call is a function from the state
before it to its answer and the state after it.  What the call takes from its
surroundings (fresh identifiers, the clock, how the append's I/O ends) is an
argument.

`next_sequence` and `journal_sequence` are `u64` in the code; they are natural
numbers here, since both stay one above the length of a vector.
-/
namespace Localview
open EarlyReturn RecordLog

/-! ## Authority values -/

/-- One-shot authority to begin dispatch, minted with a PREPARED record. -/
structure DispatchPreparedCapability where
  (journalInstanceRef actionId : Uuid)
  preparationJournalSequence : Nat
  preparationReceiptRef : String
  capabilityRef : Uuid

structure DispatchPreparedAdmission where
  entry : ConsequentialJournalEntry
  capability : DispatchPreparedCapability

/-- One-shot execution permit, minted by consuming a prepared capability. -/
structure DispatchExecutionPermit where
  (journalInstanceRef actionId : Uuid)
  preparationJournalSequence : Nat
  preparationReceiptRef : String
  permitRef : Uuid

/-- One-shot authority to capture a snapshot causally after a dispatch record. -/
structure ConsequentialPostconditionObservationPermit where
  (journalInstanceRef observationRef actionId : Uuid)
  sessionId : SessionId
  providerIncarnationRef : ProviderIncarnationRef
  targetIncarnationRef : TargetIncarnationRef
  snapshotCutRef : String
  cause : ConsequentialPostconditionObservationCause
  deriving DecidableEq

structure ConsequentialPostconditionObservationReceipt where
  actionId : Uuid
  sessionId : SessionId
  providerIncarnationRef : ProviderIncarnationRef
  targetIncarnationRef : TargetIncarnationRef
  (snapshotCutRef reconciliationReceiptRef : String)
  cause : ConsequentialPostconditionObservationCause
  deriving DecidableEq

/-- Why a postcondition is not observed. -/
inductive ConsequentialPostconditionObservationError
  | invalidRecoveryState (actionId : Uuid) (current : Option ConsequentialRecoveryState)
  | dispatchAuthorityStillLive (actionId : Uuid)
  | observationAlreadyLive (actionId : Uuid)
  | invalidPermit (actionId : Uuid) (reason : String)
  | providerIncarnationMismatch (actionId : Uuid)
  | targetIncarnationMismatch (actionId : Uuid)
  | snapshotCutMismatch (actionId : Uuid) (expected actual : String)
  | missingReconciliationReceipt (actionId : Uuid)
  deriving DecidableEq

/-! ## The instance -/

/-- That a prepared dispatch may begin. -/
structure LivePreparedGrant where
  capabilityRef : Uuid
  preparationJournalSequence : Nat
  preparationReceiptRef : String

/-- That a dispatch may be executed. -/
structure LiveExecutionGrant where
  permitRef : Uuid
  preparationJournalSequence : Nat
  preparationReceiptRef : String

structure LivePostconditionObservationGrant where
  observationRef : Uuid
  sessionId : SessionId
  providerIncarnationRef : ProviderIncarnationRef
  targetIncarnationRef : TargetIncarnationRef
  snapshotCutRef : String
  cause : ConsequentialPostconditionObservationCause

/-- What the journal holds in memory. -/
structure JournalState where
  nextSequence : Nat
  entries : List ConsequentialJournalEntry
  liveDispatchPrepared : Uuid → Option LivePreparedGrant
  liveDispatchExecution : Uuid → Option LiveExecutionGrant
  livePostconditionObservation : Uuid → Option LivePostconditionObservationGrant

/-- An instance; `file` is what the file at its path holds. -/
structure ConsequentialJournal extends JournalState where
  journalInstanceRef : Uuid
  file : Bytes

def nextSequenceAfter (entries : List ConsequentialJournalEntry) : Nat :=
  match entries.getLast? with
  | some entry => entry.journalSequence + 1
  | none => 1

/-- `open`: load the file and continue after its last entry, with no grants. -/
def openJournal (codec : EntryCodec) (faults : LoadFaults) (journalInstanceRef : Uuid)
    (file : Bytes) : Except ConsequentialJournalError ConsequentialJournal × Bytes :=
  match loadAndRepair codec faults file with
  | (.error error, file) => (.error error, file)
  | (.ok entries, file) =>
      (.ok { nextSequence := nextSequenceAfter entries
             entries
             liveDispatchPrepared := fun _ => none
             liveDispatchExecution := fun _ => none
             livePostconditionObservation := fun _ => none
             journalInstanceRef
             file }, file)

/-! ## Appending -/

/-- What one append takes from its surroundings: the clock, and how its I/O
ends. -/
structure AppendIo where
  recordedAt : Timestamp
  fault : Option AppendFault

/-- The receipt a draft becomes: its identity and completion sequence are the
journal's. -/
def ActionPostconditionReceiptDraft.complete (draft : ActionPostconditionReceiptDraft)
    (completionJournalSequence : Nat) : ActionPostconditionReceipt :=
  { receiptRef := postconditionReceiptRef draft.actionId completionJournalSequence
    actionId := draft.actionId, sessionId := draft.sessionId
    providerIncarnationRef := draft.providerIncarnationRef
    targetIncarnationRef := draft.targetIncarnationRef
    expectedPostconditionContractRefs := draft.expectedPostconditionContractRefs
    observationSnapshotCutRef := draft.observationSnapshotCutRef
    reconciliationReceiptRef := draft.reconciliationReceiptRef
    evidenceReceiptRefs := draft.evidenceReceiptRefs, evidenceBindings := draft.evidenceBindings
    verifiedContractRefs := draft.verifiedContractRefs
    failedContractRefs := draft.failedContractRefs, verdict := draft.verdict
    unresolvedUnknownContractRefs := draft.unresolvedUnknownContractRefs
    causalAssurance := draft.causalAssurance, completionJournalSequence }

/-- The snapshot cut an observation permit names. -/
def postdispatchCutRef (journalInstanceRef actionId : Uuid) (causalJournalSequence : Nat)
    (observationRef : Uuid) : String :=
  "postdispatch:" ++ journalInstanceRef.display ++ ":" ++ actionId.display ++ ":" ++
    toString causalJournalSequence ++ ":" ++ observationRef.display

/-- What `complete_postcondition_observation` checks of the snapshot, the permit
already consumed. -/
def bindObservedSnapshot (permit : ConsequentialPostconditionObservationPermit)
    (snapshot : ReconciliationSnapshotReceipt) :
    Except ConsequentialPostconditionObservationError
      ConsequentialPostconditionObservationReceipt := do
  let actionId := permit.actionId
  rejectIf (snapshot.providerIncarnationRef ≠ permit.providerIncarnationRef)
    (.providerIncarnationMismatch actionId)
  rejectIf (snapshot.targetIncarnationRef ≠ permit.targetIncarnationRef)
    (.targetIncarnationMismatch actionId)
  rejectIf (snapshot.snapshotCutRef ≠ permit.snapshotCutRef)
    (.snapshotCutMismatch actionId permit.snapshotCutRef snapshot.snapshotCutRef)
  rejectIf (trimIsEmpty snapshot.receiptId = true) (.missingReconciliationReceipt actionId)
  .ok
    { actionId, sessionId := permit.sessionId
      providerIncarnationRef := permit.providerIncarnationRef
      targetIncarnationRef := permit.targetIncarnationRef, snapshotCutRef := snapshot.snapshotCutRef
      reconciliationReceiptRef := snapshot.receiptId, cause := permit.cause }

namespace ConsequentialJournal
variable (codec : EntryCodec) (j : ConsequentialJournal)

def nextEntry (a : Uuid) (transition : ConsequentialJournalTransition)
    (io : AppendIo) : ConsequentialJournalEntry :=
  { schemaVersion := journalSchemaVersion, journalSequence := j.nextSequence, actionId := a
    recordedAt := io.recordedAt, transition }

def appendValidatedLocked (a : Uuid) (transition : ConsequentialJournalTransition)
    (io : AppendIo) :
    Except ConsequentialJournalError ConsequentialJournalEntry × ConsequentialJournal :=
  match validateTransition j.entries a transition .append with
  | .error error => (.error error, j)
  | .ok () =>
      let entry := j.nextEntry a transition io
      match codec.toVec entry with
      | .error message => (.error (.serialization message), j)
      | .ok line =>
          match appendDurable j.file (line ++ [newline]) io.fault with
          | (.error error, file) => (.error error, { j with file })
          | (.ok (), file) =>
              (.ok entry, { j with file, nextSequence := j.nextSequence + 1
                                   entries := j.entries ++ [entry] })

/-! ## The calls -/

def recordIntentAdmitted (envelope : CanonicalActionEnvelope) (io : AppendIo) :
    Except ConsequentialJournalError ConsequentialJournalEntry × ConsequentialJournal :=
  appendValidatedLocked codec j envelope.transportActionId (.intentAdmitted envelope) io

def recordAuthorization (actionId : Uuid) (authorizationRevision : String)
    (revalidated : Bool) (io : AppendIo) :
    Except ConsequentialJournalError ConsequentialJournalEntry × ConsequentialJournal :=
  appendValidatedLocked codec j actionId (.authorizationRecorded authorizationRevision revalidated)
    io

/-- `record_dispatch_prepared`: a durable PREPARED record, then its capability. -/
def recordDispatchPrepared (actionId : Uuid) (receipt : DispatchPreparationReceipt)
    (capabilityRef : Uuid) (io : AppendIo) :
    Except ConsequentialJournalError DispatchPreparedAdmission × ConsequentialJournal :=
  match appendValidatedLocked codec j actionId (.dispatchPrepared receipt) io with
  | (.error error, j) => (.error error, j)
  | (.ok entry, j) =>
      let grant : LivePreparedGrant :=
        { capabilityRef, preparationJournalSequence := entry.journalSequence
          preparationReceiptRef := receipt.receiptRef }
      (.ok
        { entry
          capability :=
            { journalInstanceRef := j.journalInstanceRef, actionId
              preparationJournalSequence := entry.journalSequence
              preparationReceiptRef := receipt.receiptRef, capabilityRef } },
        { j with
          liveDispatchPrepared := Function.update j.liveDispatchPrepared actionId (some grant) })

/-- `begin_dispatch`: consume the capability's grant, then mint a permit. -/
def beginDispatch (capability : DispatchPreparedCapability) (permitRef : Uuid) :
    Except ConsequentialJournalError DispatchExecutionPermit × ConsequentialJournal :=
  let actionId := capability.actionId
  let invalid (reason : String) :=
    ConsequentialJournalError.invalidDispatchCapability actionId reason
  if capability.journalInstanceRef ≠ j.journalInstanceRef then
    (.error (invalid "journal_instance_mismatch"), j)
  else match j.liveDispatchPrepared actionId with
  | none => (.error (invalid "live_prepared_grant_missing"), j)
  | some grant =>
      if grant.capabilityRef ≠ capability.capabilityRef ∨
          grant.preparationJournalSequence ≠ capability.preparationJournalSequence ∨
          grant.preparationReceiptRef ≠ capability.preparationReceiptRef then
        (.error (invalid "prepared_grant_binding_mismatch"), j)
      else
        -- consumed first: whatever fails below, there is nothing to retry with
        let j := { j with
          liveDispatchPrepared := Function.update j.liveDispatchPrepared actionId none }
        if recoveryStateFor j.entries actionId ≠ some .dispatchPrepared then
          (.error (invalid "durable_state_is_not_prepared"), j)
        else if durablePreparationMatches j.entries actionId
            capability.preparationJournalSequence capability.preparationReceiptRef = false then
          (.error (invalid "durable_prepared_entry_mismatch"), j)
        else
          let live : LiveExecutionGrant :=
            { permitRef, preparationJournalSequence := capability.preparationJournalSequence
              preparationReceiptRef := capability.preparationReceiptRef }
          (.ok
            { journalInstanceRef := j.journalInstanceRef, actionId
              preparationJournalSequence := capability.preparationJournalSequence
              preparationReceiptRef := capability.preparationReceiptRef, permitRef },
            { j with
              liveDispatchExecution :=
                Function.update j.liveDispatchExecution actionId (some live) })

/-- The checks `abandon_dispatch_execution` and `record_dispatch_linearized`
both start with: the permit's grant is consumed before the durable record is
looked at. -/
def consumeDispatchPermit (permit : DispatchExecutionPermit) :
    Except ConsequentialJournalError Unit × ConsequentialJournal :=
  let actionId := permit.actionId
  let invalid (reason : String) := ConsequentialJournalError.invalidDispatchPermit actionId reason
  if permit.journalInstanceRef ≠ j.journalInstanceRef then
    (.error (invalid "journal_instance_mismatch"), j)
  else match j.liveDispatchExecution actionId with
  | none => (.error (invalid "live_execution_grant_missing"), j)
  | some grant =>
      if grant.permitRef ≠ permit.permitRef ∨
          grant.preparationJournalSequence ≠ permit.preparationJournalSequence ∨
          grant.preparationReceiptRef ≠ permit.preparationReceiptRef then
        (.error (invalid "execution_grant_binding_mismatch"), j)
      else
        let j := { j with
          liveDispatchExecution := Function.update j.liveDispatchExecution actionId none }
        if recoveryStateFor j.entries actionId ≠ some .dispatchPrepared then
          (.error (invalid "durable_state_is_not_prepared"), j)
        else if durablePreparationMatches j.entries actionId
            permit.preparationJournalSequence permit.preparationReceiptRef = false then
          (.error (invalid "durable_prepared_entry_mismatch"), j)
        else (.ok (), j)

def abandonDispatchExecution (permit : DispatchExecutionPermit) :
    Except ConsequentialJournalError Unit × ConsequentialJournal :=
  consumeDispatchPermit j permit

/-- `record_dispatch_linearized`: the permit is gone even if the append fails. -/
def recordDispatchLinearized (permit : DispatchExecutionPermit)
    (receipt : DispatchLinearizationReceipt) (io : AppendIo) :
    Except ConsequentialJournalError ConsequentialJournalEntry × ConsequentialJournal :=
  match consumeDispatchPermit j permit with
  | (.error error, j) => (.error error, j)
  | (.ok (), j) => appendValidatedLocked codec j permit.actionId (.dispatchLinearized receipt) io

def beginPostconditionObservation (actionId observationRef : Uuid) :
    Except ConsequentialPostconditionObservationError
      ConsequentialPostconditionObservationPermit × ConsequentialJournal :=
  let current := recoveryStateFor j.entries actionId
  if (j.liveDispatchPrepared actionId).isSome ∨ (j.liveDispatchExecution actionId).isSome then
    (.error (.dispatchAuthorityStillLive actionId), j)
  else if (j.livePostconditionObservation actionId).isSome then
    (.error (.observationAlreadyLive actionId), j)
  else if current ≠ some .dispatchPrepared ∧ current ≠ some .possiblyDispatched ∧
      current ≠ some .outcomeObservedUnverified then
    (.error (.invalidRecoveryState actionId current), j)
  else match admittedEnvelopeFor j.entries actionId with
  | none => (.error (.invalidRecoveryState actionId current), j)
  | some envelope =>
      match postconditionObservationCauseFor j.entries actionId with
      | none => (.error (.invalidRecoveryState actionId current), j)
      | some cause =>
          let snapshotCutRef := postdispatchCutRef j.journalInstanceRef actionId
            cause.causalJournalSequence observationRef
          let grant : LivePostconditionObservationGrant :=
            { observationRef, sessionId := envelope.sessionId
              providerIncarnationRef := envelope.metadata.providerIncarnationRef
              targetIncarnationRef := envelope.metadata.targetIncarnationRef, snapshotCutRef
              cause }
          (.ok
            { journalInstanceRef := j.journalInstanceRef, observationRef, actionId
              sessionId := envelope.sessionId
              providerIncarnationRef := envelope.metadata.providerIncarnationRef
              targetIncarnationRef := envelope.metadata.targetIncarnationRef, snapshotCutRef
              cause },
            { j with
              livePostconditionObservation :=
                Function.update j.livePostconditionObservation actionId (some grant) })

section
variable (permit : ConsequentialPostconditionObservationPermit)

/-- The checks `abandon_` and `complete_postcondition_observation` both start
with. -/
def consumeObservationPermit :
    Except ConsequentialPostconditionObservationError Unit × ConsequentialJournal :=
  let actionId := permit.actionId
  if permit.journalInstanceRef ≠ j.journalInstanceRef then
    (.error (.invalidPermit actionId "journal_instance_mismatch"), j)
  else match j.livePostconditionObservation actionId with
  | none => (.error (.invalidPermit actionId "live_observation_grant_missing"), j)
  | some grant =>
      if grant.observationRef ≠ permit.observationRef ∨ grant.sessionId ≠ permit.sessionId ∨
          grant.providerIncarnationRef ≠ permit.providerIncarnationRef ∨
          grant.targetIncarnationRef ≠ permit.targetIncarnationRef ∨
          grant.snapshotCutRef ≠ permit.snapshotCutRef ∨ grant.cause ≠ permit.cause then
        (.error (.invalidPermit actionId "observation_grant_binding_mismatch"), j)
      else
        (.ok (), { j with
          livePostconditionObservation :=
            Function.update j.livePostconditionObservation actionId none })

def abandonPostconditionObservation :
    Except ConsequentialPostconditionObservationError Unit × ConsequentialJournal :=
  consumeObservationPermit j permit

def completePostconditionObservation (snapshot : ReconciliationSnapshotReceipt) :
    Except ConsequentialPostconditionObservationError
      ConsequentialPostconditionObservationReceipt × ConsequentialJournal :=
  match consumeObservationPermit j permit with
  | (.error error, j) => (.error error, j)
  | (.ok (), j) => (bindObservedSnapshot permit snapshot, j)

end

def recordActionPostconditionReceipt (draft : ActionPostconditionReceiptDraft)
    (io : AppendIo) :
    Except ConsequentialJournalError (ConsequentialJournalEntry × ActionPostconditionReceipt) ×
      ConsequentialJournal :=
  let receipt := draft.complete j.nextSequence
  match appendValidatedLocked codec j draft.actionId (.postconditionReceiptRecorded receipt) io with
  | (.error error, j) => (.error error, j)
  | (.ok entry, j) => (.ok (entry, receipt), j)

def recordCompensation (actionId : Uuid) (compensationRef : String)
    (worldOutcome : WorldOutcome) (io : AppendIo) :
    Except ConsequentialJournalError ConsequentialJournalEntry × ConsequentialJournal :=
  appendValidatedLocked codec j actionId (.compensationRecorded compensationRef worldOutcome) io

def recordCommitted (actionId : Uuid) (io : AppendIo) :
    Except ConsequentialJournalError ConsequentialJournalEntry × ConsequentialJournal :=
  appendValidatedLocked codec j actionId .committed io

def requiresReconciliation (actionId : Uuid) : Option Bool :=
  (recoveryStateFor j.entries actionId).map fun state =>
    match state with
    | .dispatchPrepared | .possiblyDispatched | .outcomeObservedUnverified
    | .compensationFailed => true
    | _ => false

end ConsequentialJournal

end Localview
