import Localview.ActionEnvelope

/-! # Consequential journal records

The records of the durable consequential journal
(`live-bridge/src/consequential_journal/base.rs`): the eight transitions an
action's history is made of, the entry that carries one, the recovery state a
history ends in, and the journal's errors with their texts.
-/
namespace Localview

def journalSchemaVersion : Nat := 1

/-- Durable evidence that the final authority/freshness fence has been sealed
and the action is immediately eligible to cross the side-effect boundary. -/
structure DispatchPreparationReceipt where
  receiptRef : String
  authorizationJournalSequence : Nat
  preconditionSnapshotCutRef : String
  providerIncarnationRef : ProviderIncarnationRef
  targetIncarnationRef : TargetIncarnationRef
  deriving DecidableEq

structure DispatchLinearizationReceipt where
  receiptRef : String
  transportResult : TransportResult
  dispatchResult : DispatchResult
  deriving DecidableEq

/-- What the evidence says of the postcondition. -/
inductive ActionPostconditionVerdict
  | verifiedExpected
  | verifiedUnexpected
  | reconciliationRequired
  deriving DecidableEq

def ActionPostconditionVerdict.worldOutcome : ActionPostconditionVerdict → WorldOutcome
  | .verifiedExpected => .verifiedExpected
  | .verifiedUnexpected => .verifiedUnexpected
  | .reconciliationRequired => .reconciliationRequired

def ActionPostconditionVerdict.postconditionsVerified (v : ActionPostconditionVerdict) : Bool :=
  v == .verifiedExpected

/-- Which receipt is for which contract. -/
structure ActionPostconditionEvidenceBinding where
  (contractRef receiptRef : String)
  deriving DecidableEq

/-- Which durable dispatch record an observation is causally after. -/
inductive ConsequentialPostconditionObservationCause
  | dispatchLinearized (journalSequence : Nat) (receiptRef : String)
  | dispatchPreparedUncertain (journalSequence : Nat) (preparationReceiptRef : String)
  deriving DecidableEq

def ConsequentialPostconditionObservationCause.causalJournalSequence :
    ConsequentialPostconditionObservationCause → Nat
  | .dispatchLinearized journalSequence _ => journalSequence
  | .dispatchPreparedUncertain journalSequence _ => journalSequence

/-- First-class durable proof of independently observed action postconditions. -/
structure ActionPostconditionReceipt where
  receiptRef : String
  actionId : Uuid
  sessionId : SessionId
  providerIncarnationRef : ProviderIncarnationRef
  targetIncarnationRef : TargetIncarnationRef
  expectedPostconditionContractRefs : List String
  (observationSnapshotCutRef reconciliationReceiptRef : String)
  evidenceReceiptRefs : List String
  evidenceBindings : List ActionPostconditionEvidenceBinding
  (verifiedContractRefs failedContractRefs : List String)
  verdict : ActionPostconditionVerdict
  unresolvedUnknownContractRefs : List String
  causalAssurance : ConsequentialPostconditionObservationCause
  completionJournalSequence : Nat
  deriving DecidableEq

/-- What a caller supplies of a receipt; the journal mints its identity and its
completion sequence. -/
structure ActionPostconditionReceiptDraft where
  actionId : Uuid
  sessionId : SessionId
  providerIncarnationRef : ProviderIncarnationRef
  targetIncarnationRef : TargetIncarnationRef
  expectedPostconditionContractRefs : List String
  (observationSnapshotCutRef reconciliationReceiptRef : String)
  evidenceReceiptRefs : List String
  evidenceBindings : List ActionPostconditionEvidenceBinding
  (verifiedContractRefs failedContractRefs : List String)
  verdict : ActionPostconditionVerdict
  unresolvedUnknownContractRefs : List String
  causalAssurance : ConsequentialPostconditionObservationCause

/-- What an entry records of an action. -/
inductive ConsequentialJournalTransition
  | intentAdmitted (envelope : CanonicalActionEnvelope)
  | authorizationRecorded (authorizationRevision : String) (revalidated : Bool)
  | dispatchPrepared (receipt : DispatchPreparationReceipt)
  | dispatchLinearized (receipt : DispatchLinearizationReceipt)
  | postconditionReceiptRecorded (receipt : ActionPostconditionReceipt)
  /-- Historical aggregate transition retained strictly for replay. -/
  | reconciliationOutcome (worldOutcome : WorldOutcome)
      (reconciliationReceiptRef : Option String) (postconditionReceiptRefs : List String)
      (postconditionsVerified : Bool)
  | compensationRecorded (compensationRef : String) (worldOutcome : WorldOutcome)
  | committed
  deriving DecidableEq

structure ConsequentialJournalEntry where
  (schemaVersion journalSequence : Nat)
  actionId : Uuid
  recordedAt : Timestamp
  transition : ConsequentialJournalTransition

/-- What is known of an action. -/
inductive ConsequentialRecoveryState
  | admitted
  | authorizedNotDispatched
  /-- A durable write-ahead record exists immediately before the external
  side-effect boundary, but no durable dispatch receipt exists. -/
  | dispatchPrepared
  | knownNotDispatched
  | possiblyDispatched
  | outcomeObservedUnverified
  | verifiedUncommitted
  | compensated
  | compensationFailed
  | committed
  deriving DecidableEq

/-- The derived `Debug` name. -/
def ConsequentialRecoveryState.debug : ConsequentialRecoveryState → String
  | .admitted => "Admitted"
  | .authorizedNotDispatched => "AuthorizedNotDispatched"
  | .dispatchPrepared => "DispatchPrepared"
  | .knownNotDispatched => "KnownNotDispatched"
  | .possiblyDispatched => "PossiblyDispatched"
  | .outcomeObservedUnverified => "OutcomeObservedUnverified"
  | .verifiedUncommitted => "VerifiedUncommitted"
  | .compensated => "Compensated"
  | .compensationFailed => "CompensationFailed"
  | .committed => "Committed"

/-- Why the journal refuses. -/
inductive ConsequentialJournalError
  | io (operation message : String)
  | serialization (message : String)
  | worker (message : String)
  | corruptRecord (line : Nat) (message : String)
  | unknownAction (actionId : Uuid)
  | duplicateIntent (actionId : Uuid)
  | invalidTransition (actionId : Uuid) (attempted : String)
      (current : Option ConsequentialRecoveryState)
  | invalidDispatchCapability (actionId : Uuid) (reason : String)
  | invalidDispatchPermit (actionId : Uuid) (reason : String)

/-- `Option<ConsequentialRecoveryState>` as `{:?}` prints it. -/
def debugRecoveryState : Option ConsequentialRecoveryState → String
  | none => "None"
  | some s => "Some(" ++ s.debug ++ ")"

/-- The error's `Display` text. -/
def ConsequentialJournalError.display : ConsequentialJournalError → String
  | .io operation message => "journal I/O failed during " ++ operation ++ ": " ++ message
  | .serialization message => "journal serialization failed: " ++ message
  | .worker message => "journal worker failed: " ++ message
  | .corruptRecord line message =>
      "corrupt journal record at line " ++ toString line ++ ": " ++ message
  | .unknownAction actionId => "unknown consequential action " ++ actionId.display
  | .duplicateIntent actionId =>
      "consequential action " ++ actionId.display ++ " was admitted more than once"
  | .invalidTransition actionId attempted current =>
      "invalid journal transition '" ++ attempted ++ "' for action " ++ actionId.display ++
        " from " ++ debugRecoveryState current
  | .invalidDispatchCapability actionId reason =>
      "invalid prepared dispatch capability for action " ++ actionId.display ++ ": " ++ reason
  | .invalidDispatchPermit actionId reason =>
      "invalid dispatch execution permit for action " ++ actionId.display ++ ": " ++ reason

end Localview
