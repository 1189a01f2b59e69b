import Localview.ActionCancellation
import Localview.ActionEnvelope
import Localview.EarlyReturn

/-! # The live bridge

The bridge of `live-bridge/src/v43_lib.rs` and `action_envelope.rs`: observation
and public actions of every session, the canonical envelopes that bind an action
id to its authority, and the managed surface each session's executor is on.

Every call that queues, takes or hands off an action holds the action gate from
its first look at the envelopes on, so each is one step.  Identifiers a call
mints, and the times it reads, are its parameters.
-/
namespace Localview
open EarlyReturn

structure CanonicalQueuedAction where
  action : BridgeAction
  envelope : CanonicalActionEnvelope

/-- Why an action gets no envelope. -/
inductive ActionEnvelopeBindingError
  | missingProviderObservation
  | providerIncarnationMismatch
  | targetIncarnationMismatch
  | missingDecisionPrincipal
  | missingActingPrincipal
  | missingAuthorizationRevision
  | missingPreconditionSnapshotCut
  | missingExpectedPostcondition
  | internalCaptureActionUnsupported

/-- Why a bound action is not handed off. -/
inductive BoundCanonicalDispatchError
  | missingCanonicalEnvelope
  | envelopeMismatch
  | actionIdentityMismatch
  | missingProviderObservation
  | providerIncarnationMismatch
  | targetIncarnationMismatch
  | internalCaptureActionUnsupported
  | publicQueueRejected

/-- What the completion of a surface's action says. -/
inductive ManagedSurfaceActionCompletion
  | completed
  | authorityStale
  | actionNotInflight

/-- The queues, observations and envelopes of all sessions. -/
structure LiveBridge where
  legacy : CancellableBridge
  observation : SessionId → SessionObservation
  actionEnvelopes : Uuid → Option CanonicalActionEnvelope
  managedSurfaceActionAuthority : SessionId → Option String

namespace LiveBridge
variable (b : LiveBridge)

/-- `LiveBridge::new` -/
def new (actionCapacity : Nat) : LiveBridge :=
  { legacy := .new actionCapacity, observation := fun _ => ⟨none, ⟨0, none, []⟩⟩
    actionEnvelopes := fun _ => none, managedSurfaceActionAuthority := fun _ => none }

def enqueueAction (action : BridgeAction) : LiveBridge :=
  { b with legacy := b.legacy.enqueueAction action }

section
variable (sessionId : SessionId)

/-- Retire the executor of a session: its queued and delivered work and its
envelopes. -/
def retireExecutor : LiveBridge :=
  { b with
    legacy := (b.legacy.discardPublicActionsForSession sessionId).2
    actionEnvelopes := fun actionId =>
      (b.actionEnvelopes actionId).filter fun envelope => envelope.sessionId ≠ sessionId }

def ensureManagedSurfaceActionAuthority (authorityRef : String) :
    Bool × LiveBridge :=
  if b.managedSurfaceActionAuthority sessionId = some authorityRef then (false, b)
  else (true, { b.retireExecutor sessionId with
    managedSurfaceActionAuthority :=
      Function.update b.managedSurfaceActionAuthority sessionId (some authorityRef) })

def takePublicActions (limit : Nat) (now : Timestamp) :
    List BridgeAction × LiveBridge :=
  let (actions, legacy) := b.legacy.takePublicActions sessionId limit now
  (actions, { b with legacy })

/-- `take_managed_surface_actions`: a change of authority retires the executor
before it. -/
def takeManagedSurfaceActions (authorityRef : String) (limit : Nat)
    (now : Timestamp) : List BridgeAction × LiveBridge :=
  (b.ensureManagedSurfaceActionAuthority sessionId authorityRef).2.takePublicActions sessionId limit
    now

def claimAction (actionId : Uuid) : Option BridgeAction × LiveBridge :=
  let (claimed, legacy) := b.legacy.claimAction sessionId actionId
  (claimed, { b with legacy })

def completeAction (origin : CompletionOrigin) (resultId : Uuid) (now : Timestamp) : LiveBridge :=
  { b with legacy := b.legacy.completeAction origin resultId now }

def completeManagedSurfaceAction (authorityRef : String) (resultId : Uuid)
    (now : Timestamp) : ManagedSurfaceActionCompletion × LiveBridge :=
  if b.managedSurfaceActionAuthority sessionId ≠ some authorityRef then (.authorityStale, b)
  else match b.claimAction sessionId resultId with
  | (none, b) => (.actionNotInflight, b)
  | (some action, b) => (.completed, b.completeAction (.action action) resultId now)

def clearManagedSurfaceActionAuthority : Bool × LiveBridge :=
  if (b.managedSurfaceActionAuthority sessionId).isSome then
    (true, { b.retireExecutor sessionId with
      managedSurfaceActionAuthority :=
        Function.update b.managedSurfaceActionAuthority sessionId none })
  else (false, b)

/-- What both canonical admissions check of the request alone. -/
def checkEnvelopeMetadata (action : BridgeActionKind) (metadata : ActionEnvelopeMetadata) :
    Except ActionEnvelopeBindingError Unit := do
  rejectIf (action.isInternalCaptureAction = true) .internalCaptureActionUnsupported
  rejectIf (trimIsEmpty metadata.decisionPrincipalRef.asStr = true) .missingDecisionPrincipal
  rejectIf (trimIsEmpty metadata.actingPrincipalRef.asStr = true) .missingActingPrincipal
  rejectIf (trimIsEmpty metadata.authorizationRevision = true) .missingAuthorizationRevision
  rejectIf (trimIsEmpty metadata.preconditionSnapshotCutRef = true) .missingPreconditionSnapshotCut
  rejectIf (metadata.riskClass ≠ .observeOnly ∧ metadata.expectedPostconditionContractRefs = [])
    .missingExpectedPostcondition

/-- What both check against the session's current incarnations. -/
def checkIncarnations (metadata : ActionEnvelopeMetadata) :
    Except ActionEnvelopeBindingError Unit :=
  match (b.observation sessionId).continuity with
  | none => .error .missingProviderObservation
  | some state => do
      rejectIf (metadata.providerIncarnationRef ≠ state.providerIncarnationRef)
        .providerIncarnationMismatch
      rejectIf (metadata.targetIncarnationRef ≠ state.targetIncarnationRef) .targetIncarnationMismatch

end

/-- The envelope of an action, stored. -/
def insertEnvelope (envelope : CanonicalActionEnvelope) : LiveBridge :=
  { b with
    actionEnvelopes :=
      Function.update b.actionEnvelopes envelope.transportActionId (some envelope) }

section
variable (action : BridgeAction) (envelopeId : Uuid) (metadata : ActionEnvelopeMetadata)

/-- The envelope an admission binds to its action. -/
def envelopeFor : CanonicalActionEnvelope :=
  { envelopeId, transportActionId := action.id, sessionId := action.sessionId, metadata }

def enqueueCanonicalAction : Except ActionEnvelopeBindingError CanonicalQueuedAction × LiveBridge :=
  match checkEnvelopeMetadata action.action metadata, b.checkIncarnations action.sessionId metadata
  with
  | .error error, _ => (.error error, b)
  | .ok (), .error error => (.error error, b)
  | .ok (), .ok () =>
      let envelope := envelopeFor action envelopeId metadata
      (.ok { action, envelope }, (b.enqueueAction action).insertEnvelope envelope)

/-- `bind_direct_canonical_action`: bound, but not queued. -/
def bindDirectCanonicalAction :
    Except ActionEnvelopeBindingError CanonicalQueuedAction × LiveBridge :=
  match checkEnvelopeMetadata action.action metadata, b.checkIncarnations action.sessionId metadata
  with
  | .error error, _ => (.error error, b)
  | .ok (), .error error => (.error error, b)
  | .ok (), .ok () =>
      let envelope := envelopeFor action envelopeId metadata
      (.ok { action, envelope }, b.insertEnvelope envelope)

end

/-- The envelope of an action, gone. -/
def removeEnvelope (actionId : Uuid) : LiveBridge :=
  { b with actionEnvelopes := Function.update b.actionEnvelopes actionId none }

def discardBoundCanonicalAction (actionId : Uuid) : Bool × LiveBridge :=
  ((b.actionEnvelopes actionId).isSome, b.removeEnvelope actionId)

/-- The incarnation check of the hand-off. -/
def checkDispatchIncarnations (queued : CanonicalQueuedAction) :
    Except BoundCanonicalDispatchError Unit :=
  match (b.observation queued.action.sessionId).continuity with
  | none => .error .missingProviderObservation
  | some state => do
      rejectIf (queued.envelope.metadata.providerIncarnationRef ≠ state.providerIncarnationRef)
        .providerIncarnationMismatch
      rejectIf (queued.envelope.metadata.targetIncarnationRef ≠ state.targetIncarnationRef)
        .targetIncarnationMismatch

/-- `enqueue_bound_canonical_action_for_dispatch`: once the stored envelope is
found to be the one given, it is consumed, whatever follows. -/
def enqueueBoundCanonicalActionForDispatch (queued : CanonicalQueuedAction) :
    Except BoundCanonicalDispatchError Unit × LiveBridge :=
  if queued.action.action.isInternalCaptureAction then
    (.error .internalCaptureActionUnsupported, b)
  else if queued.action.id ≠ queued.envelope.transportActionId ∨
      queued.action.sessionId ≠ queued.envelope.sessionId then
    (.error .actionIdentityMismatch, b)
  else match b.actionEnvelopes queued.action.id with
  | none => (.error .missingCanonicalEnvelope, b)
  | some stored =>
      if stored ≠ queued.envelope then (.error .envelopeMismatch, b)
      else
        let consumed := b.removeEnvelope queued.action.id
        match consumed.checkDispatchIncarnations queued with
        | .error error => (.error error, consumed)
        | .ok () =>
            match consumed.legacy.enqueuePreboundPublicAction queued.action with
            | (false, legacy) => (.error .publicQueueRejected, { consumed with legacy })
            | (true, legacy) => (.ok (), { consumed with legacy })

def requestActionCancellation (sessionId : SessionId) (actionId : Uuid) (now : Timestamp) :
    Option ActionCancellationOutcome × LiveBridge :=
  let (outcome, legacy) := b.legacy.requestActionCancellation sessionId actionId now
  (outcome, { b with legacy })

def acknowledgeActionCancellation (sessionId : SessionId) (actionId : Uuid) (now : Timestamp) :
    Bool × LiveBridge :=
  let (acknowledged, legacy) := b.legacy.acknowledgeActionCancellation sessionId actionId now
  (acknowledged, { b with legacy })

/-- `take_internal_capture_actions`, which the base bridge does. -/
def takeInternalCaptureActions (sessionId : SessionId) (limit : Nat) :
    List BridgeAction × LiveBridge :=
  let (actions, queues) :=
    (b.legacy.queues sessionId).takeInternalCaptureActions b.legacy.actionCapacity limit
  (actions, { b with legacy := b.legacy.setQueues sessionId queues })

def observe (eventCapacity : Nat) (sessionId : SessionId) (c : ObservationCall) : LiveBridge :=
  { b with
    observation :=
      Function.update b.observation sessionId ((b.observation sessionId).call eventCapacity c) }

end LiveBridge

/-! ## Calls -/

/-- A call of the bridge. -/
inductive BridgeCall
  | enqueueAction (action : BridgeAction)
  | enqueueCanonicalAction (action : BridgeAction) (envelopeId : Uuid)
      (metadata : ActionEnvelopeMetadata)
  | bindDirectCanonicalAction (action : BridgeAction) (envelopeId : Uuid)
      (metadata : ActionEnvelopeMetadata)
  | discardBoundCanonicalAction (actionId : Uuid)
  | enqueueBoundCanonicalActionForDispatch (queued : CanonicalQueuedAction)
  | takePublicActions (sessionId : SessionId) (limit : Nat) (now : Timestamp)
  | takeManagedSurfaceActions (sessionId : SessionId) (authorityRef : String) (limit : Nat)
      (now : Timestamp)
  | takeInternalCaptureActions (sessionId : SessionId) (limit : Nat)
  | ensureManagedSurfaceActionAuthority (sessionId : SessionId) (authorityRef : String)
  | clearManagedSurfaceActionAuthority (sessionId : SessionId)
  | claimAction (sessionId : SessionId) (actionId : Uuid)
  | completeAction (origin : CompletionOrigin) (resultId : Uuid) (now : Timestamp)
  | completeManagedSurfaceAction (sessionId : SessionId) (authorityRef : String)
      (resultId : Uuid) (now : Timestamp)
  | requestActionCancellation (sessionId : SessionId) (actionId : Uuid) (now : Timestamp)
  | acknowledgeActionCancellation (sessionId : SessionId) (actionId : Uuid) (now : Timestamp)
  | observe (eventCapacity : Nat) (sessionId : SessionId) (c : ObservationCall)

/-- What a call of the bridge returns. -/
inductive BridgeAnswer
  | queued (action : BridgeAction)
  | bound (result : Except ActionEnvelopeBindingError CanonicalQueuedAction)
  | handedOff (result : Except BoundCanonicalDispatchError Unit)
  /-- What a take of public actions returned. -/
  | taken (actions : List BridgeAction)
  | captureTaken (actions : List BridgeAction)
  | claimed (action : Option BridgeAction)
  | completion (result : ManagedSurfaceActionCompletion)
  | cancellation (outcome : Option ActionCancellationOutcome)
  | acknowledged (cancelled : Bool)
  | changed (changed : Bool)
  | done

/-- Make one call. -/
def LiveBridge.run (b : LiveBridge) : BridgeCall → BridgeAnswer × LiveBridge
  | .enqueueAction action => (.queued action, b.enqueueAction action)
  | .enqueueCanonicalAction action envelopeId metadata =>
      let (result, b) := b.enqueueCanonicalAction action envelopeId metadata
      (.bound result, b)
  | .bindDirectCanonicalAction action envelopeId metadata =>
      let (result, b) := b.bindDirectCanonicalAction action envelopeId metadata
      (.bound result, b)
  | .discardBoundCanonicalAction actionId =>
      let (existed, b) := b.discardBoundCanonicalAction actionId
      (.changed existed, b)
  | .enqueueBoundCanonicalActionForDispatch queued =>
      let (result, b) := b.enqueueBoundCanonicalActionForDispatch queued
      (.handedOff result, b)
  | .takePublicActions sessionId limit now =>
      let (actions, b) := b.takePublicActions sessionId limit now
      (.taken actions, b)
  | .takeManagedSurfaceActions sessionId authorityRef limit now =>
      let (actions, b) := b.takeManagedSurfaceActions sessionId authorityRef limit now
      (.taken actions, b)
  | .takeInternalCaptureActions sessionId limit =>
      let (actions, b) := b.takeInternalCaptureActions sessionId limit
      (.captureTaken actions, b)
  | .ensureManagedSurfaceActionAuthority sessionId authorityRef =>
      let (changed, b) := b.ensureManagedSurfaceActionAuthority sessionId authorityRef
      (.changed changed, b)
  | .clearManagedSurfaceActionAuthority sessionId =>
      let (existed, b) := b.clearManagedSurfaceActionAuthority sessionId
      (.changed existed, b)
  | .claimAction sessionId actionId =>
      let (action, b) := b.claimAction sessionId actionId
      (.claimed action, b)
  | .completeAction origin resultId now => (.done, b.completeAction origin resultId now)
  | .completeManagedSurfaceAction sessionId authorityRef resultId now =>
      let (result, b) := b.completeManagedSurfaceAction sessionId authorityRef resultId now
      (.completion result, b)
  | .requestActionCancellation sessionId actionId now =>
      let (outcome, b) := b.requestActionCancellation sessionId actionId now
      (.cancellation outcome, b)
  | .acknowledgeActionCancellation sessionId actionId now =>
      let (cancelled, b) := b.acknowledgeActionCancellation sessionId actionId now
      (.acknowledged cancelled, b)
  | .observe eventCapacity sessionId c => (.done, b.observe eventCapacity sessionId c)

end Localview
