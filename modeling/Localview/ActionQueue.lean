import Localview.ProviderContinuity

/-! # The bridge's action queues

The action part of one session of the base bridge (`live-bridge/src/lib.rs`): the
queue a client fills, the actions handed out (in flight), those an executor has
claimed, and what is remembered of an action once it is complete.  Internal
capture actions have queues of their own.

Of a result only its action id is kept: nothing here reads what it says.  A
session the bridge has not seen has empty queues.
-/
namespace Localview

/-- The bits of an `f64`; nothing here computes with one. -/
abbrev F64 := BitVec 64

/-- What an action does on the page. -/
inductive BridgeActionKind
  | click
  | typeText (text : String) (clearFirst : Bool)
  | key (key : String) (modifiers : List String)
  | scroll (x y : F64)
  | focus
  | snapshot
  | measure
  | freezeVisuals
  | restoreVisuals (token : Uuid)
  | captureScrollTo (token : Uuid) (y : F64)
  | captureTileProbe (token : Uuid)

def BridgeActionKind.isInternalCaptureAction : BridgeActionKind → Bool
  | .freezeVisuals | .restoreVisuals _ | .captureScrollTo _ _ | .captureTileProbe _ => true
  | .click | .typeText _ _ | .key _ _ | .scroll _ _ | .focus | .snapshot | .measure => false

structure BridgeAction where
  id : Uuid
  sessionId : SessionId
  reference : Option String
  action : BridgeActionKind
  createdAt : Timestamp

/-- When an action ran. -/
structure ActionExecutionBoundary where
  actionId : Uuid
  sessionId : SessionId
  (startedAt completedAt : Timestamp)

/-- Who reports a result: a session, or a claimed action. -/
inductive CompletionOrigin
  | session (sessionId : SessionId)
  | action (action : BridgeAction)

def CompletionOrigin.sessionId : CompletionOrigin → SessionId
  | .session sessionId => sessionId
  | .action origin => origin.sessionId

/-- The queue an action belongs to. -/
inductive ActionScope
  | isPublic
  | internalCapture

def ActionScope.fromAction (action : BridgeAction) : ActionScope :=
  if action.action.isInternalCaptureAction then .internalCapture else .isPublic

/-- The action part of a `SessionBridgeState`. -/
structure ActionQueues where
  (actions captureActions inflight captureInflight claimed captureClaimed : List BridgeAction)
  actionStartedAt : Uuid → Option Timestamp
  actionBoundaries : List ActionExecutionBoundary
  /-- The action ids of the results. -/
  results : List Uuid
  captureResults : List Uuid

def ActionQueues.empty : ActionQueues :=
  { actions := [], captureActions := [], inflight := [], captureInflight := [], claimed := []
    captureClaimed := [], actionStartedAt := fun _ => none, actionBoundaries := [], results := []
    captureResults := [] }

def actionIds (queue : List BridgeAction) : List Uuid := queue.map (·.id)

def holdsId (queue : List BridgeAction) (actionId : Uuid) : Bool :=
  queue.any fun action => action.id = actionId

/-- The queue without the first action of an id. -/
def removeId (queue : List BridgeAction) (actionId : Uuid) : List BridgeAction :=
  queue.eraseP fun action => action.id = actionId

/-- `drain_actions`: the first `limit` actions, and the rest of the queue with
what is in flight now. -/
def drainActions (queue inflight : List BridgeAction) (limit capacity : Nat) :
    List BridgeAction × List BridgeAction × List BridgeAction :=
  let actions := queue.take limit
  (actions, queue.drop limit,
    actions.foldl (fun inflight action => pushBounded capacity inflight action) inflight)

def claimFromScope (inflight claimed : List BridgeAction) (actionId : Uuid) (capacity : Nat) :
    Option (BridgeAction × List BridgeAction × List BridgeAction) :=
  (inflight.find? fun action => action.id = actionId).map fun action =>
    (action, removeId inflight actionId, pushBounded capacity claimed action)

namespace ActionQueues
variable (capacity : Nat) (q : ActionQueues)

/-- `enqueue_action` of an action just minted; a full queue drops its oldest. -/
def enqueueAction (action : BridgeAction) : ActionQueues :=
  match ActionScope.fromAction action with
  | .isPublic => { q with actions := pushBounded capacity q.actions action }
  | .internalCapture =>
      { q with captureActions := pushBounded capacity q.captureActions action }

/-- The check of `enqueue_prebound_public_action`: the id is in some queue or has
left a trace. -/
def duplicate (actionId : Uuid) : Bool :=
  holdsId q.actions actionId || holdsId q.inflight actionId || holdsId q.claimed actionId ||
    holdsId q.captureActions actionId || holdsId q.captureInflight actionId ||
    holdsId q.captureClaimed actionId || q.results.contains actionId ||
    q.captureResults.contains actionId || (q.actionStartedAt actionId).isSome ||
    q.actionBoundaries.any fun boundary => boundary.actionId = actionId

def enqueuePreboundPublicAction (action : BridgeAction) : Bool × ActionQueues :=
  if action.action.isInternalCaptureAction then (false, q)
  else if q.duplicate action.id ∨ capacity ≤ q.actions.length then (false, q)
  else (true, { q with actions := q.actions ++ [action] })

def takePublicActions (limit : Nat) (now : Timestamp) : List BridgeAction × ActionQueues :=
  let (actions, queue, inflight) := drainActions q.actions q.inflight limit capacity
  (actions,
    { q with
      actions := queue
      inflight
      actionStartedAt := actions.foldl
        (fun startedAt action =>
          Function.update startedAt action.id (some ((startedAt action.id).getD now)))
        q.actionStartedAt })

/-- `take_internal_capture_actions`, without the private data it attaches. -/
def takeInternalCaptureActions (limit : Nat) : List BridgeAction × ActionQueues :=
  let (actions, queue, inflight) := drainActions q.captureActions q.captureInflight limit capacity
  (actions, { q with captureActions := queue, captureInflight := inflight })

def claimAction (actionId : Uuid) : Option BridgeAction × ActionQueues :=
  match claimFromScope q.captureInflight q.captureClaimed actionId capacity with
  | some (action, captureInflight, captureClaimed) =>
      (some action, { q with captureInflight, captureClaimed })
  | none =>
      match claimFromScope q.inflight q.claimed actionId capacity with
      | some (action, inflight, claimed) => (some action, { q with inflight, claimed })
      | none => (none, q)

def discardPublicAction (actionId : Uuid) : Bool × ActionQueues :=
  if holdsId q.inflight actionId then
    (true,
      { q with
        inflight := removeId q.inflight actionId
        actionStartedAt := Function.update q.actionStartedAt actionId none })
  else (false, q)

/-- `discard_public_actions_for_session` -/
def discardPublicActions : Nat × ActionQueues :=
  (q.actions.length + q.inflight.length + q.claimed.length,
    { q with actions := [], inflight := [], claimed := [], actionStartedAt := fun _ => none })

def removeClaimedForScope (scope : ActionScope) (actionId : Uuid) : ActionQueues :=
  match scope with
  | .isPublic => { q with claimed := removeId q.claimed actionId }
  | .internalCapture => { q with captureClaimed := removeId q.captureClaimed actionId }

def takeClaimedById (actionId : Uuid) : Option (BridgeAction × ActionScope) × ActionQueues :=
  match q.captureClaimed.find? fun action => action.id = actionId with
  | some action =>
      (some (action, .internalCapture),
        { q with captureClaimed := removeId q.captureClaimed actionId })
  | none =>
      match q.claimed.find? fun action => action.id = actionId with
      | some action => (some (action, .isPublic), { q with claimed := removeId q.claimed actionId })
      | none => (none, q)

/-- `complete_action` with a result for `resultId`.  Results are bounded like
the queues: the bridge sets both capacities to the same number. -/
def completeAction (origin : CompletionOrigin) (resultId : Uuid) (now : Timestamp) :
    ActionQueues :=
  let (completed, q) : Option (BridgeAction × ActionScope) × ActionQueues :=
    match origin with
    | .action action =>
        let scope := ActionScope.fromAction action
        (some (action, scope), q.removeClaimedForScope scope action.id)
    | .session _ => q.takeClaimedById resultId
  let q : ActionQueues :=
    match completed with
    | some (action, .isPublic) =>
        match q.actionStartedAt action.id with
        | some startedAt =>
            { q with
              actionStartedAt := Function.update q.actionStartedAt action.id none
              actionBoundaries := pushBounded capacity q.actionBoundaries
                { actionId := action.id, sessionId := origin.sessionId, startedAt
                  completedAt := now } }
        | none => q
    | some (_, .internalCapture) | none => q
  match completed with
  | some (_, .internalCapture) =>
      { q with captureResults := pushBounded capacity q.captureResults resultId }
  | some (_, .isPublic) | none => { q with results := pushBounded capacity q.results resultId }

end ActionQueues

end Localview
