import Mathlib.Data.Finset.Card
import Localview.JournalEntry
import Localview.EarlyReturn

/-! # Which transition a history admits

`validateTransition` decides, from the entries recorded so far, whether one
more transition of an action may be recorded.  It runs in two modes: `append`
for new records, `replay` for records read back from the file, which also
admits two historical transitions (`Admits.replay`).

Every check reads the history through four scans: the recovery state of the
action's last entry, its admitted envelope, its latest authorization and its
latest dispatch record.
-/
namespace Localview
open EarlyReturn

/-! ## Scans of the history -/

/-- The recovery state an action is in after `transition`. -/
def transitionState : ConsequentialJournalTransition → ConsequentialRecoveryState
  | .intentAdmitted _ => .admitted
  | .authorizationRecorded _ _ => .authorizedNotDispatched
  | .dispatchPrepared _ => .dispatchPrepared
  | .dispatchLinearized receipt =>
      match receipt.dispatchResult with
      | .dispatchedFull | .dispatchedPartial | .dispatchAmbiguous => .possiblyDispatched
      | .notDispatched | .dispatchRejected | .dispatchBlockedPermission
      | .dispatchBlockedIdentity | .dispatchBlockedFocus | .dispatchBlockedProvider =>
          .knownNotDispatched
  | .postconditionReceiptRecorded receipt =>
      if receipt.verdict = .verifiedExpected then .verifiedUncommitted
      else .outcomeObservedUnverified
  | .reconciliationOutcome worldOutcome _ _ postconditionsVerified =>
      if postconditionsVerified ∧ worldOutcome = .verifiedExpected then
        .verifiedUncommitted
      else .outcomeObservedUnverified
  | .compensationRecorded _ worldOutcome =>
      if worldOutcome = .compensatedVerified then .compensated else .compensationFailed
  | .committed => .committed

section
variable (entries : List ConsequentialJournalEntry) (actionId : Uuid)

/-- `recovery_state_for`: the state after the action's last entry. -/
def recoveryStateFor : Option ConsequentialRecoveryState :=
  (entries.filter (·.actionId = actionId)).foldl
    (fun _ entry => some (transitionState entry.transition)) none

/-- `admitted_envelope_for`: the envelope of the action's first admission. -/
def admittedEnvelopeFor : Option CanonicalActionEnvelope :=
  entries.findSome? fun entry =>
    if entry.actionId ≠ actionId then none
    else match entry.transition with
      | .intentAdmitted envelope => some envelope
      | _ => none

def latestAuthorization : Option (Nat × String × Bool) :=
  entries.reverse.findSome? fun entry =>
    if entry.actionId ≠ actionId then none
    else match entry.transition with
      | .authorizationRecorded authorizationRevision revalidated =>
          some (entry.journalSequence, authorizationRevision, revalidated)
      | _ => none

/-- `postcondition_observation_cause_for`: the latest durable dispatch record. -/
def postconditionObservationCauseFor : Option ConsequentialPostconditionObservationCause :=
  entries.reverse.findSome? fun entry =>
    if entry.actionId ≠ actionId then none
    else match entry.transition with
      | .dispatchLinearized receipt =>
          some (.dispatchLinearized entry.journalSequence receipt.receiptRef)
      | .dispatchPrepared receipt =>
          some (.dispatchPreparedUncertain entry.journalSequence receipt.receiptRef)
      | _ => none

def durablePreparationMatches
    (preparationJournalSequence : Nat) (preparationReceiptRef : String) : Bool :=
  entries.any fun entry =>
    entry.actionId == actionId && entry.journalSequence == preparationJournalSequence &&
      match entry.transition with
      | .dispatchPrepared receipt => receipt.receiptRef == preparationReceiptRef
      | _ => false

/-! ## Validation -/

/-- Whether an entry is new or read back. -/
inductive TransitionValidationMode
  | append
  | replay
  deriving DecidableEq

def validateDispatchPreparation
    (receipt : DispatchPreparationReceipt) (current : Option ConsequentialRecoveryState) :
    Except ConsequentialJournalError Unit := do
  let invalid (attempted : String) := ConsequentialJournalError.invalidTransition actionId attempted current
  let envelope ← okOr (admittedEnvelopeFor entries actionId) (.unknownAction actionId)
  let (authorizationSequence, authorizationRevision, revalidated) ←
    okOr (latestAuthorization entries actionId) (invalid "dispatch_prepared_without_authorization")
  rejectIf (revalidated = false) (invalid "dispatch_prepared_without_revalidated_authority")
  rejectIf (authorizationRevision ≠ envelope.metadata.authorizationRevision)
    (invalid "dispatch_prepared_with_stale_authorization_revision")
  rejectIf (trimIsEmpty receipt.receiptRef = true) (invalid "dispatch_prepared_without_receipt_ref")
  rejectIf (receipt.authorizationJournalSequence ≠ authorizationSequence)
    (invalid "dispatch_prepared_with_stale_authorization_sequence")
  rejectIf (receipt.preconditionSnapshotCutRef ≠ envelope.metadata.preconditionSnapshotCutRef)
    (invalid "dispatch_prepared_with_mismatched_precondition_cut")
  rejectIf (receipt.providerIncarnationRef ≠ envelope.metadata.providerIncarnationRef)
    (invalid "dispatch_prepared_with_mismatched_provider_incarnation")
  rejectIf (receipt.targetIncarnationRef ≠ envelope.metadata.targetIncarnationRef)
    (invalid "dispatch_prepared_with_mismatched_target_incarnation")

/-- The loop building `classified`: every contract is expected and new. -/
def classifyContracts (expected : Finset String) : List String → Finset String →
    Option (Finset String)
  | [], classified => some classified
  | contractRef :: rest, classified =>
      if contractRef ∉ expected ∨ contractRef ∈ classified then none
      else classifyContracts expected rest (insert contractRef classified)

/-- The loop building `bound_contracts` and `bound_receipt_refs`. -/
def bindEvidence (expected : Finset String) :
    List ActionPostconditionEvidenceBinding → Finset String → List String →
    Option (Finset String × List String)
  | [], boundContracts, boundReceiptRefs => some (boundContracts, boundReceiptRefs)
  | binding :: rest, boundContracts, boundReceiptRefs =>
      if binding.contractRef ∉ expected ∨ binding.contractRef ∈ boundContracts ∨
          trimIsEmpty binding.receiptRef = true then none
      else bindEvidence expected rest (insert binding.contractRef boundContracts)
        (boundReceiptRefs ++ [binding.receiptRef])

def partitionVerdict (failedContractRefs unresolvedUnknownContractRefs : List String) :
    ActionPostconditionVerdict :=
  if failedContractRefs ≠ [] then .verifiedUnexpected
  else if unresolvedUnknownContractRefs = [] then .verifiedExpected
  else .reconciliationRequired

/-- The identity the journal mints for the receipt completed at `sequence`. -/
def postconditionReceiptRef (actionId : Uuid) (sequence : Nat) : String :=
  "postcondition:" ++ actionId.display ++ ":" ++ toString sequence

def validateActionPostconditionReceipt (receipt : ActionPostconditionReceipt)
    (current : Option ConsequentialRecoveryState) : Except ConsequentialJournalError Unit := do
  let invalid (attempted : String) := ConsequentialJournalError.invalidTransition actionId attempted current
  let envelope ← okOr (admittedEnvelopeFor entries actionId) (.unknownAction actionId)
  rejectIf (receipt.actionId ≠ actionId) (invalid "postcondition_receipt_action_mismatch")
  rejectIf (receipt.sessionId ≠ envelope.sessionId)
    (invalid "postcondition_receipt_session_mismatch")
  rejectIf (receipt.providerIncarnationRef ≠ envelope.metadata.providerIncarnationRef)
    (invalid "postcondition_receipt_provider_mismatch")
  rejectIf (receipt.targetIncarnationRef ≠ envelope.metadata.targetIncarnationRef)
    (invalid "postcondition_receipt_target_mismatch")
  rejectIf (receipt.expectedPostconditionContractRefs ≠
      envelope.metadata.expectedPostconditionContractRefs)
    (invalid "postcondition_receipt_expected_contracts_mismatch")
  rejectIf (trimIsEmpty receipt.observationSnapshotCutRef = true ∨
      receipt.observationSnapshotCutRef = envelope.metadata.preconditionSnapshotCutRef)
    (invalid "postcondition_receipt_observation_cut_not_fresh")
  rejectIf (trimIsEmpty receipt.reconciliationReceiptRef = true)
    (invalid "postcondition_receipt_missing_reconciliation_ref")
  let expectedSequence := entries.length + 1
  rejectIf (receipt.completionJournalSequence ≠ expectedSequence)
    (invalid "postcondition_receipt_completion_sequence_mismatch")
  rejectIf (receipt.receiptRef ≠ postconditionReceiptRef actionId expectedSequence)
    (invalid "postcondition_receipt_identity_mismatch")
  rejectIf (receipt.causalAssurance.causalJournalSequence ≥ expectedSequence)
    (invalid "postcondition_receipt_causal_sequence_not_prior")
  rejectIf (postconditionObservationCauseFor entries actionId ≠ some receipt.causalAssurance)
    (invalid "postcondition_receipt_causal_history_mismatch")
  let expected := receipt.expectedPostconditionContractRefs.toFinset
  rejectIf (expected.card ≠ receipt.expectedPostconditionContractRefs.length ∨ expected = ∅)
    (invalid "postcondition_receipt_invalid_expected_contract_set")
  let classified ← okOr
    (classifyContracts expected (receipt.verifiedContractRefs ++ receipt.failedContractRefs ++
      receipt.unresolvedUnknownContractRefs) ∅)
    (invalid "postcondition_receipt_invalid_contract_partition")
  rejectIf (classified ≠ expected) (invalid "postcondition_receipt_incomplete_contract_partition")
  rejectIf (receipt.verdict ≠
      partitionVerdict receipt.failedContractRefs receipt.unresolvedUnknownContractRefs)
    (invalid "postcondition_receipt_verdict_partition_mismatch")
  let (boundContracts, boundReceiptRefs) ← okOr
    (bindEvidence expected receipt.evidenceBindings ∅ [])
    (invalid "postcondition_receipt_invalid_evidence_binding")
  rejectIf (boundReceiptRefs ≠ receipt.evidenceReceiptRefs)
    (invalid "postcondition_receipt_evidence_summary_mismatch")
  rejectIf (∃ contractRef ∈ receipt.verifiedContractRefs ++ receipt.failedContractRefs,
      contractRef ∉ boundContracts)
    (invalid "postcondition_receipt_decisive_contract_without_evidence")

def validateTransition
    (transition : ConsequentialJournalTransition) (mode : TransitionValidationMode) :
    Except ConsequentialJournalError Unit :=
  let current := recoveryStateFor entries actionId
  let invalid (attempted : String) := ConsequentialJournalError.invalidTransition actionId attempted current
  match transition with
  | .intentAdmitted envelope => do
      rejectIf (current.isSome) (.duplicateIntent actionId)
      rejectIf (envelope.transportActionId ≠ actionId)
        (invalid "intent_admitted_with_mismatched_transport_action")
  | .authorizationRecorded _ _ =>
      match current with
      | none => .error (.unknownAction actionId)
      | some .admitted | some .authorizedNotDispatched => .ok ()
      | _ => .error (invalid "authorization_recorded")
  | .dispatchPrepared receipt => do
      rejectIf (current = none) (.unknownAction actionId)
      rejectIf (current ≠ some .authorizedNotDispatched) (invalid "dispatch_prepared")
      validateDispatchPreparation entries actionId receipt current
  | .dispatchLinearized _ =>
      match current with
      | none => .error (.unknownAction actionId)
      | some .dispatchPrepared => .ok ()
      -- journals from before the PREPARED boundary are still valid history
      | some .authorizedNotDispatched =>
          if mode = .replay then .ok ()
          else .error (invalid "dispatch_linearized_without_durable_prepare")
      | _ => .error (invalid "dispatch_linearized_without_durable_prepare")
  | .postconditionReceiptRecorded receipt => do
      rejectIf (current = none) (.unknownAction actionId)
      rejectIf (current ≠ some .dispatchPrepared ∧ current ≠ some .possiblyDispatched ∧
          current ≠ some .outcomeObservedUnverified)
        (invalid "postcondition_receipt_recorded")
      validateActionPostconditionReceipt entries actionId receipt current
  | .reconciliationOutcome _ _ _ _ =>
      if mode ≠ .replay then
        .error (invalid "legacy_reconciliation_outcome_append_forbidden")
      else match current with
        | none => .error (.unknownAction actionId)
        | some .dispatchPrepared | some .possiblyDispatched | some .knownNotDispatched
        | some .outcomeObservedUnverified => .ok ()
        | _ => .error (invalid "reconciliation_outcome")
  | .compensationRecorded _ _ =>
      match current with
      | none => .error (.unknownAction actionId)
      | some .outcomeObservedUnverified => .ok ()
      | _ => .error (invalid "compensation_recorded")
  | .committed =>
      match current with
      | none => .error (.unknownAction actionId)
      | some .verifiedUncommitted => .ok ()
      | _ => .error (invalid "committed")

end

end Localview
