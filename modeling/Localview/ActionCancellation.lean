import Localview.ActionQueue

/-! # Cancellation of public actions

The cancellation authority over the base queues (`live-bridge/src/cancellable_lib.rs`).
It keeps one lifecycle entry for each queued or delivered public action, a copy of
the order of each public queue, and the actions cancelled so far, oldest first:
of those only the last 256 that are not queued any more are remembered.

Every call holds the authority's lock throughout, so calls are atomic here.
Hash maps are functions to options; an absent queue is an empty one.
-/
namespace Localview

def minNativeExecutorCapacity : Nat := 8

@[irreducible] def maxCancelledTombstones : Nat := 256

/-- Where a queued action stands. -/
inductive ActionLifecycle
  | pending
  | inflight
  | cancellationRequested
  | cancelled
  deriving DecidableEq

/-- What the authority holds of an action. -/
structure ActionLifecycleEntry where
  state : ActionLifecycle
  cancellationRequestedAt : Option Timestamp

/-- What a cancellation request is told. -/
inductive ActionCancellationState
  | cancellationRequested
  | cancelled
  deriving DecidableEq

/-- The answer to a cancellation request. -/
structure ActionCancellationOutcome where
  actionId : Uuid
  state : ActionCancellationState
  acknowledged : Bool

abbrev ActionKey := SessionId × Uuid

/-- Who may still run which action. -/
structure ActionCancellationAuthority where
  actions : ActionKey → Option ActionLifecycleEntry
  queued : SessionId → List Uuid
  cancelledOrder : List ActionKey

namespace ActionCancellationAuthority
variable (a : ActionCancellationAuthority)

def empty : ActionCancellationAuthority :=
  { actions := fun _ => none, queued := fun _ => [], cancelledOrder := [] }

/-- The map of entries with one entry inserted, or removed. -/
def setEntry (key : ActionKey) (entry : Option ActionLifecycleEntry) :
    ActionCancellationAuthority :=
  { a with actions := Function.update a.actions key entry }

def stateOf (key : ActionKey) : Option ActionLifecycle := (a.actions key).map (·.state)

def isQueued (key : ActionKey) : Bool := (a.queued key.1).contains key.2

def removeQueued (sessionId : SessionId) (actionId : Uuid) : ActionCancellationAuthority :=
  { a with queued := Function.update a.queued sessionId ((a.queued sessionId).erase actionId) }

/-- Forget a key that is still in a given state. -/
def forgetIf (key : ActionKey) (state : ActionLifecycle) : ActionCancellationAuthority :=
  if a.stateOf key = some state then a.setEntry key none else a

/-- The loop of `prune_cancelled_tombstones`, which removes one key a round: so
often as there are keys too many. -/
def pruneExcess : Nat → ActionCancellationAuthority → ActionCancellationAuthority
  | 0, a => a
  | excess + 1, a =>
      match a.cancelledOrder.find? fun key => !a.isQueued key with
      | none => a
      | some key => pruneExcess excess
          ({ a with
            cancelledOrder := a.cancelledOrder.eraseP fun key => !a.isQueued key }.forgetIf key
              .cancelled)

def pruneCancelledTombstones : ActionCancellationAuthority :=
  pruneExcess (a.cancelledOrder.length - maxCancelledTombstones) a

/-- The eviction of `record_enqueued`: the oldest ids go, and the entries of those
that are still pending. -/
def evictQueued (capacity : Nat) (sessionId : SessionId) :
    List Uuid → ActionCancellationAuthority → ActionCancellationAuthority
  | [], a => { a with queued := Function.update a.queued sessionId [] }
  | evictedId :: queue, a =>
      if capacity < (evictedId :: queue).length then
        evictQueued capacity sessionId queue (a.forgetIf (sessionId, evictedId) .pending)
      else { a with queued := Function.update a.queued sessionId (evictedId :: queue) }

def recordEnqueued (action : BridgeAction) (capacity : Nat) : ActionCancellationAuthority :=
  let key := (action.sessionId, action.id)
  (evictQueued capacity action.sessionId (a.queued action.sessionId ++ [action.id])
    (a.setEntry key (some { state := .pending, cancellationRequestedAt := none })))
    |>.pruneCancelledTombstones

def markCancelled (key : ActionKey) (requestedAt : Timestamp) : ActionCancellationAuthority :=
  let alreadyCancelled := a.stateOf key = some .cancelled
  let marked : ActionCancellationAuthority :=
    if (a.actions key).isSome then
      a.setEntry key (some { state := .cancelled, cancellationRequestedAt := some requestedAt })
    else a
  (if alreadyCancelled then marked
    else { marked with cancelledOrder := marked.cancelledOrder ++ [key] })
    |>.pruneCancelledTombstones

def removeAction (key : ActionKey) : ActionCancellationAuthority :=
  (a.setEntry key none).removeQueued key.1 key.2

def releaseSession (sessionId : SessionId) : ActionCancellationAuthority :=
  { actions := fun key => if key.1 = sessionId then none else a.actions key
    queued := Function.update a.queued sessionId []
    cancelledOrder := a.cancelledOrder.filter fun key => key.1 ≠ sessionId }

/-- The loop of `take_public_actions`: which of the actions taken are delivered,
and which are consumed. -/
def deliverTaken (sessionId : SessionId) :
    List BridgeAction → ActionCancellationAuthority →
    List BridgeAction × List Uuid × ActionCancellationAuthority
  | [], a => ([], [], a)
  | action :: taken, a =>
      let key := (sessionId, action.id)
      let a := a.removeQueued sessionId action.id
      match a.actions key with
      | some entry =>
          if entry.state = .pending then
            let (deliver, consume, a) := deliverTaken sessionId taken
              (a.setEntry key (some { entry with state := .inflight }))
            (action :: deliver, consume, a)
          else
            let (deliver, consume, a) := deliverTaken sessionId taken a
            (deliver, action.id :: consume, a)
      | none =>
          let (deliver, consume, a) := deliverTaken sessionId taken a
          (deliver, action.id :: consume, a)

end ActionCancellationAuthority

/-- The base queues of every session and the cancellation authority over them. -/
structure CancellableBridge where
  queues : SessionId → ActionQueues
  authority : ActionCancellationAuthority
  actionCapacity : Nat

namespace CancellableBridge
variable (b : CancellableBridge)

/-- `LiveBridge::new` -/
def new (actionCapacity : Nat) : CancellableBridge :=
  { queues := fun _ => .empty, authority := .empty
    actionCapacity := max actionCapacity minNativeExecutorCapacity }

/-- One session's queues replaced. -/
def setQueues (sessionId : SessionId) (queues : ActionQueues) : CancellableBridge :=
  { b with queues := Function.update b.queues sessionId queues }

/-- `enqueue_action` of an action just minted. -/
def enqueueAction (action : BridgeAction) : CancellableBridge :=
  let b' := b.setQueues action.sessionId
    ((b.queues action.sessionId).enqueueAction b.actionCapacity action)
  if action.action.isInternalCaptureAction then b'
  else { b' with authority := b.authority.recordEnqueued action b.actionCapacity }

def enqueuePreboundPublicAction (action : BridgeAction) : Bool × CancellableBridge :=
  if action.action.isInternalCaptureAction then (false, b)
  else
    match (b.queues action.sessionId).enqueuePreboundPublicAction b.actionCapacity action with
    | (false, _) => (false, b)
    | (true, queues) =>
        (true, { b.setQueues action.sessionId queues with
          authority := b.authority.recordEnqueued action b.actionCapacity })

def takePublicActions (sessionId : SessionId) (limit : Nat) (now : Timestamp) :
    List BridgeAction × CancellableBridge :=
  let (taken, queues) := (b.queues sessionId).takePublicActions b.actionCapacity limit now
  let (deliver, consume, authority) := b.authority.deliverTaken sessionId taken
  (deliver,
    { b.setQueues sessionId
        (consume.foldl (fun queues actionId => (queues.discardPublicAction actionId).2) queues) with
      authority := authority.pruneCancelledTombstones })

/-- `claim_action`: an action the authority knows is claimed in flight only. -/
def claimAction (sessionId : SessionId) (actionId : Uuid) :
    Option BridgeAction × CancellableBridge :=
  let (claimed, queues) := (b.queues sessionId).claimAction b.actionCapacity actionId
  match b.authority.stateOf (sessionId, actionId) with
  | none => (claimed, b.setQueues sessionId queues)
  | some state =>
      if state ≠ .inflight then (none, b)
      else match claimed with
      | none => (none, b)
      | some claimed =>
          (some claimed, { b.setQueues sessionId queues with
            authority := b.authority.removeAction (sessionId, actionId) })

/-- `complete_action`, which the base bridge does. -/
def completeAction (origin : CompletionOrigin) (resultId : Uuid) (now : Timestamp) :
    CancellableBridge :=
  b.setQueues origin.sessionId
    ((b.queues origin.sessionId).completeAction b.actionCapacity origin resultId now)

def requestActionCancellation (sessionId : SessionId) (actionId : Uuid) (now : Timestamp) :
    Option ActionCancellationOutcome × CancellableBridge :=
  let key := (sessionId, actionId)
  match b.authority.stateOf key with
  | none => (none, b)
  | some .pending =>
      (some { actionId, state := .cancelled, acknowledged := true },
        { b with authority := b.authority.markCancelled key now })
  | some .inflight =>
      (some { actionId, state := .cancellationRequested, acknowledged := false },
        { b with
          authority := b.authority.setEntry key
            (some { state := .cancellationRequested, cancellationRequestedAt := some now }) })
  | some .cancellationRequested =>
      (some { actionId, state := .cancellationRequested, acknowledged := false }, b)
  | some .cancelled => (some { actionId, state := .cancelled, acknowledged := true }, b)

def acknowledgeActionCancellation (sessionId : SessionId) (actionId : Uuid) (now : Timestamp) :
    Bool × CancellableBridge :=
  let key := (sessionId, actionId)
  match b.authority.actions key with
  | none => (false, b)
  | some entry =>
      match entry.state with
      | .cancelled => (true, b)
      | .pending | .inflight => (false, b)
      | .cancellationRequested =>
          (true, { b.setQueues sessionId ((b.queues sessionId).discardPublicAction actionId).2 with
            authority := b.authority.markCancelled key (entry.cancellationRequestedAt.getD now) })

def discardPublicActionsForSession (sessionId : SessionId) : Nat × CancellableBridge :=
  let (removed, queues) := (b.queues sessionId).discardPublicActions
  (removed, { b.setQueues sessionId queues with
    authority := b.authority.releaseSession sessionId })

end CancellableBridge

end Localview
