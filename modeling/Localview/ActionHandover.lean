import Localview.ActionLifecycle
import Localview.OrderedMap

/-! # Actions handed out

An action handed out is in flight until an executor claims it, acknowledges its
cancellation, or the session's work is discarded.  Two layers keep track of it:
the base queues, and the cancellation authority, whose entry is then in flight or
asked to cancel (`handed`).

`Handover` is what both say of one session, by action ids alone, and
`HandoverStep` all that a call can do to it; the calls of the bridge are shown to
take such steps, and what the two layers agree on is derived from the steps.
-/
namespace Localview
open List Function ActionCancellationAuthority

/-- The entry of an action that an executor has been given and has not claimed. -/
def ActionLifecycle.isHandedOut : ActionLifecycle → Bool
  | .inflight | .cancellationRequested => true
  | .pending | .cancelled => false

/-! ## The authority's record -/

namespace ActionCancellationAuthority
variable {a : ActionCancellationAuthority}

def handed (a : ActionCancellationAuthority) (key : ActionKey) : Option ActionLifecycle :=
  (a.stateOf key).filter (·.isHandedOut)

theorem handed_eq_some {key : ActionKey} {state : ActionLifecycle} :
    a.handed key = some state ↔ a.stateOf key = some state ∧ state.isHandedOut = true :=
  Option.filter_eq_some_iff

theorem handed_none {key : ActionKey} (h : a.stateOf key = none) : a.handed key = none := by
  rw [handed, h]
  rfl

theorem handed_of_state {key : ActionKey} {state : ActionLifecycle} (h : a.stateOf key = some state)
    (hstate : state.isHandedOut = false) : a.handed key = none := by
  rw [handed, h, Option.filter_some, hstate]
  rfl

theorem handed_setEntry (key k : ActionKey) (entry : Option ActionLifecycleEntry) :
    (a.setEntry key entry).handed k =
      if k = key then (entry.map (·.state)).filter (·.isHandedOut) else a.handed k := by
  rw [handed, stateOf_setEntry]
  split_ifs <;> rfl

theorem handed_forgetIf (key : ActionKey) {state : ActionLifecycle}
    (hstate : state.isHandedOut = false) (k : ActionKey) :
    (a.forgetIf key state).handed k = a.handed k := by
  unfold forgetIf
  split_ifs with hkey
  · rw [handed_setEntry]
    by_cases hk : k = key
    · rw [if_pos hk, hk, handed_of_state hkey hstate]
      rfl
    · rw [if_neg hk]
  · rfl

theorem handed_pruneExcess (excess : Nat) (k : ActionKey) :
    (pruneExcess excess a).handed k = a.handed k := by
  induction excess generalizing a with
  | zero => rfl
  | succ excess ih =>
    unfold pruneExcess
    split
    · rfl
    · rw [ih, handed_forgetIf _ rfl]
      rfl

theorem handed_prune (k : ActionKey) : a.pruneCancelledTombstones.handed k = a.handed k :=
  handed_pruneExcess _ k

theorem handed_evictQueued (capacity : Nat) (sessionId : SessionId) (queue : List Uuid)
    (k : ActionKey) : (evictQueued capacity sessionId queue a).handed k = a.handed k := by
  induction queue generalizing a with
  | nil => rfl
  | cons evictedId queue ih =>
    unfold evictQueued
    split_ifs
    · rw [ih, handed_forgetIf _ rfl]
    · rfl

/-- A queued action is no longer one handed out. -/
theorem handed_recordEnqueued (action : BridgeAction) (capacity : Nat) (k : ActionKey) :
    (a.recordEnqueued action capacity).handed k =
      if k = (action.sessionId, action.id) then none else a.handed k := by
  unfold recordEnqueued
  rw [handed_prune, handed_evictQueued, handed_setEntry]
  rfl

theorem handed_markCancelled (key : ActionKey) (now : Timestamp) (k : ActionKey) :
    (a.markCancelled key now).handed k = if k = key then none else a.handed k := by
  let marked : ActionCancellationAuthority :=
    if (a.actions key).isSome then
      a.setEntry key (some { state := .cancelled, cancellationRequestedAt := some now })
    else a
  have hmarked : marked.handed k = if k = key then none else a.handed k := by
    by_cases hsome : (a.actions key).isSome
    · rw [show marked = _ from if_pos hsome, handed_setEntry]
      rfl
    · rw [show marked = a from if_neg hsome]
      split_ifs with hk
      · rw [hk]
        refine handed_none ?_
        rw [stateOf, Option.not_isSome_iff_eq_none.mp hsome]
        rfl
      · rfl
  -- the order of the cancelled is no part of the record
  unfold markCancelled
  dsimp only
  rw [handed_prune]
  by_cases hcancelled : a.stateOf key = some .cancelled
  · rw [if_pos hcancelled]
    exact hmarked
  · rw [if_neg hcancelled]
    exact hmarked

theorem handed_removeAction (key k : ActionKey) :
    (a.removeAction key).handed k = if k = key then none else a.handed k :=
  handed_setEntry key k none

theorem handed_releaseSession (sessionId : SessionId) (k : ActionKey) :
    (a.releaseSession sessionId).handed k = if k.1 = sessionId then none else a.handed k := by
  show Option.filter _ ((if k.1 = sessionId then none else a.actions k).map (·.state)) = _
  split_ifs <;> rfl

/-- One round of the loop of `take_public_actions`: a pending action is delivered
and handed out, any other consumed. -/
theorem deliverTaken_cons (sessionId : SessionId) (action : BridgeAction)
    (taken : List BridgeAction) :
    (∃ entry : ActionLifecycleEntry, a.deliverTaken sessionId (action :: taken) =
        let rest := ((a.removeQueued sessionId action.id).setEntry (sessionId, action.id)
          (some { entry with state := .inflight })).deliverTaken sessionId taken
        (action :: rest.1, rest.2.1, rest.2.2)) ∨
      a.deliverTaken sessionId (action :: taken) =
        let rest := (a.removeQueued sessionId action.id).deliverTaken sessionId taken
        (rest.1, action.id :: rest.2.1, rest.2.2) := by
  rw [deliverTaken]
  dsimp only
  split
  · split_ifs
    · exact .inl ⟨_, rfl⟩
    · exact .inr rfl
  · exact .inr rfl

/-- The loop makes every action it delivers one handed out, and no other. -/
theorem handed_deliverTaken (sessionId : SessionId) (taken : List BridgeAction) (k : ActionKey) :
    (a.deliverTaken sessionId taken).2.2.handed k =
      if k.1 = sessionId ∧ k.2 ∈ actionIds (a.deliverTaken sessionId taken).1 then some .inflight
      else a.handed k := by
  induction taken generalizing a with
  | nil =>
    rw [if_neg fun h => not_mem_nil h.2]
    rfl
  | cons action taken ih =>
    rcases deliverTaken_cons (a := a) sessionId action taken with ⟨entry, hround⟩ | hround
    · rw [hround]
      dsimp only
      rw [ih, handed_setEntry]
      by_cases hk : k = (sessionId, action.id)
      · subst hk
        rw [if_pos rfl]
        refine Eq.trans ?_ (if_pos ⟨rfl, mem_cons_self⟩).symm
        split_ifs <;> rfl
      · rw [if_neg hk]
        -- another action of the session is delivered exactly if the rest delivers it
        refine if_congr (and_congr_right fun hsession => ?_) rfl rfl
        exact (mem_cons.trans (or_iff_right fun hid => hk (Prod.ext hsession hid))).symm
    · rw [hround]
      exact ih

/-- What the loop takes it delivers or consumes, each once. -/
theorem deliverTaken_perm (sessionId : SessionId) (taken : List BridgeAction) :
    (actionIds taken).Perm (actionIds (a.deliverTaken sessionId taken).1 ++
      (a.deliverTaken sessionId taken).2.1) := by
  induction taken generalizing a with
  | nil => exact List.Perm.refl _
  | cons action taken ih =>
    rcases deliverTaken_cons (a := a) sessionId action taken with ⟨entry, hround⟩ | hround
    · rw [hround]
      exact ih.cons action.id
    · rw [hround]
      exact (ih.cons action.id).trans perm_middle.symm

end ActionCancellationAuthority

/-! ## The base queues -/

theorem mem_actionIds {queue : List BridgeAction} {actionId : Uuid} :
    actionId ∈ actionIds queue ↔ holdsId queue actionId = true := by
  unfold actionIds holdsId
  simp only [mem_map, any_eq_true, decide_eq_true_eq]

theorem actionIds_removeId (queue : List BridgeAction) (actionId : Uuid) :
    actionIds (removeId queue actionId) = (actionIds queue).erase actionId := by
  unfold actionIds removeId
  induction queue with
  | nil => rfl
  | cons action queue ih =>
    by_cases hid : action.id = actionId
    · rw [eraseP_cons, decide_eq_true hid, cond_true, map_cons, hid, erase_cons_head]
    · rw [eraseP_cons, decide_eq_false hid, cond_false, map_cons, map_cons, ih,
        erase_cons_tail (by simpa using hid)]

theorem actionIds_pushBounded (capacity : Nat) (queue : List BridgeAction) (action : BridgeAction) :
    actionIds (pushBounded capacity queue action) =
      pushBounded capacity (actionIds queue) action.id := by
  unfold actionIds pushBounded
  rw [map_drop, map_append, length_append, length_append, length_map]
  rfl

/-- A full queue keeps its newest entries. -/
theorem foldl_pushBounded {α : Type} {capacity : Nat} {queue : List α}
    (hroom : queue.length ≤ capacity) (added : List α) :
    added.foldl (pushBounded capacity) queue =
      (queue ++ added).drop ((queue ++ added).length - capacity) := by
  induction added generalizing queue with
  | nil =>
    rw [append_nil, Nat.sub_eq_zero_of_le hroom]
    rfl
  | cons a added ih =>
    have hpushed : (pushBounded capacity queue a).length ≤ capacity := by
      unfold pushBounded
      rw [length_drop]
      omega
    rw [foldl_cons, ih hpushed]
    unfold pushBounded
    have hsplit : queue ++ a :: added = (queue ++ [a]) ++ added := by simp
    rw [hsplit, ← drop_append_of_le_length (Nat.sub_le _ _), drop_drop]
    congr 1
    simp only [length_drop, length_append, length_singleton]
    omega

namespace ActionQueues
variable {q : ActionQueues}

theorem discardPublicAction_ids (actionId : Uuid) :
    actionIds (q.discardPublicAction actionId).2.inflight = (actionIds q.inflight).erase actionId ∧
      (q.discardPublicAction actionId).2.claimed = q.claimed ∧
      (q.discardPublicAction actionId).2.actionStartedAt =
        if actionId ∈ actionIds q.inflight then update q.actionStartedAt actionId none
        else q.actionStartedAt := by
  unfold discardPublicAction
  by_cases hheld : holdsId q.inflight actionId = true
  · rw [if_pos hheld, if_pos (mem_actionIds.mpr hheld)]
    exact ⟨actionIds_removeId _ _, rfl, rfl⟩
  · have hnot : actionId ∉ actionIds q.inflight := fun hmem => hheld (mem_actionIds.mp hmem)
    rw [if_neg hheld, if_neg hnot]
    exact ⟨(erase_of_not_mem hnot).symm, rfl, rfl⟩

theorem discardAll_ids (ids : List Uuid) (q : ActionQueues) :
    let q' := ids.foldl (fun queues actionId => (queues.discardPublicAction actionId).2) q
    actionIds q'.inflight = (actionIds q.inflight).diff ids ∧ q'.claimed = q.claimed ∧
      ∀ id, q'.actionStartedAt id =
        if id ∈ ids ∧ id ∈ actionIds q.inflight then none else q.actionStartedAt id := by
  induction ids generalizing q with
  | nil => exact ⟨rfl, rfl, fun id => (if_neg fun h => not_mem_nil h.1).symm⟩
  | cons actionId ids ih =>
    obtain ⟨hinflight, hclaimed, hstarted⟩ := discardPublicAction_ids (q := q) actionId
    obtain ⟨hinflight', hclaimed', hstarted'⟩ := ih (q.discardPublicAction actionId).2
    refine ⟨?_, hclaimed'.trans hclaimed, fun id => ?_⟩
    · rw [diff_cons, ← hinflight]
      exact hinflight'
    · rw [foldl_cons, hstarted', hinflight, hstarted]
      by_cases hid : id = actionId
      · subst hid
        by_cases hmem : id ∈ actionIds q.inflight
        · refine Eq.trans ?_ (if_pos ⟨mem_cons_self, hmem⟩).symm
          rw [if_pos hmem, update_self, ite_self]
        · rw [if_neg hmem, erase_of_not_mem hmem, if_neg fun h => hmem h.2,
            if_neg fun h => hmem h.2]
      · have hold : (if actionId ∈ actionIds q.inflight then
            update q.actionStartedAt actionId none else q.actionStartedAt) id =
              q.actionStartedAt id := by
          split_ifs
          · exact update_of_ne hid ..
          · rfl
        rw [hold]
        refine if_congr (and_congr ?_ (mem_erase_of_ne hid)) rfl rfl
        exact (mem_cons.trans (or_iff_right hid)).symm

/-- The start of an action is when it was first handed out. -/
theorem started_foldl (taken : List BridgeAction) (startedAt : Uuid → Option Timestamp)
    (now : Timestamp) (id : Uuid) :
    taken.foldl (fun (startedAt : Uuid → Option Timestamp) action =>
        update startedAt action.id (some ((startedAt action.id).getD now))) startedAt id =
      if id ∈ actionIds taken then some ((startedAt id).getD now) else startedAt id := by
  induction taken generalizing startedAt with
  | nil => exact (if_neg not_mem_nil).symm
  | cons action taken ih =>
    rw [foldl_cons, ih]
    by_cases hid : id = action.id
    · subst hid
      rw [update_self]
      refine Eq.trans ?_ (if_pos mem_cons_self).symm
      split_ifs <;> rfl
    · rw [update_of_ne hid]
      exact if_congr (mem_cons.trans (or_iff_right hid)).symm rfl rfl

theorem claimAction_public (capacity : Nat) {actionId : Uuid}
    (hcapture : actionId ∉ actionIds q.captureInflight) :
    (actionId ∈ actionIds q.inflight ∧ ∃ action, action.id = actionId ∧
        q.claimAction capacity actionId = (some action,
          { q with
            inflight := removeId q.inflight actionId
            claimed := pushBounded capacity q.claimed action })) ∨
      (actionId ∉ actionIds q.inflight ∧ q.claimAction capacity actionId = (none, q)) := by
  have hfind : ∀ queue : List BridgeAction, actionId ∉ actionIds queue →
      queue.find? (fun action => action.id = actionId) = none := by
    intro queue hnot
    rw [find?_eq_none]
    intro action haction hid
    exact hnot (mem_map.mpr ⟨action, haction, of_decide_eq_true hid⟩)
  unfold claimAction claimFromScope
  rw [hfind _ hcapture]
  cases hmem : q.inflight.find? fun action => action.id = actionId with
  | some action =>
    have hid : action.id = actionId := by simpa using find?_some hmem
    refine .inl ⟨?_, action, hid, rfl⟩
    rw [← hid]
    exact mem_map_of_mem (mem_of_find?_eq_some hmem)
  | none =>
    refine .inr ⟨fun hin => ?_, rfl⟩
    obtain ⟨action, haction, hid⟩ := mem_map.mp hin
    exact find?_eq_none.mp hmem action haction (decide_eq_true hid)

/-- A claim of an action that is not in flight can only be one of a capture. -/
theorem claimAction_other (capacity : Nat) {actionId : Uuid}
    (hnot : actionId ∉ actionIds q.inflight) :
    (q.claimAction capacity actionId).2.inflight = q.inflight ∧
      (q.claimAction capacity actionId).2.claimed = q.claimed ∧
      (q.claimAction capacity actionId).2.actionStartedAt = q.actionStartedAt := by
  by_cases hcapture : actionId ∈ actionIds q.captureInflight
  · obtain ⟨action, haction, hid⟩ := mem_map.mp hcapture
    unfold claimAction claimFromScope
    cases hmem : q.captureInflight.find? fun action => action.id = actionId with
    | some action => exact ⟨rfl, rfl, rfl⟩
    | none => exact absurd (decide_eq_true hid) (find?_eq_none.mp hmem action haction)
  · rcases claimAction_public capacity hcapture with ⟨hin, -⟩ | ⟨-, hclaim⟩
    · exact absurd hin hnot
    · rw [hclaim]
      exact ⟨rfl, rfl, rfl⟩

end ActionQueues

/-! ## The machine -/

/-- What authority and queues say of the actions of one session that were handed
out. -/
@[ext] structure Handover where
  record : Uuid → Option ActionLifecycle
  inflight : List Uuid
  claimed : List Uuid
  startedAt : Uuid → Option Timestamp

namespace Handover
variable (capacity : Nat) (h : Handover)

/-- What is in flight once `taken` has been put behind it. -/
def pushed (taken : List Uuid) : List Uuid :=
  (h.inflight ++ taken).drop ((h.inflight ++ taken).length - capacity)

/-- `taken` is handed out, except for `consumed`. -/
def take (taken delivered consumed : List Uuid) (now : Timestamp) : Handover :=
  { record := fun id => if id ∈ delivered then some .inflight else h.record id
    inflight := (h.pushed capacity taken).diff consumed, claimed := h.claimed
    startedAt := fun id =>
      if id ∈ consumed ∧ id ∈ h.pushed capacity taken then none
      else if id ∈ taken then some ((h.startedAt id).getD now) else h.startedAt id }

def claim (id : Uuid) : Handover :=
  { record := update h.record id none, inflight := h.inflight.erase id
    claimed := pushBounded capacity h.claimed id, startedAt := h.startedAt }

def complete (id : Uuid) : Handover :=
  { h with claimed := h.claimed.erase id, startedAt := update h.startedAt id none }

def acknowledge (id : Uuid) : Handover :=
  { record := update h.record id none, inflight := h.inflight.erase id
    claimed := h.claimed
    startedAt := if id ∈ h.inflight then update h.startedAt id none else h.startedAt }

/-- Nothing is handed out. -/
def idle : Handover :=
  { record := fun _ => none, inflight := [], claimed := [], startedAt := fun _ => none }

end Handover

/-- A claim drops no claimed action that has a start. -/
def Handover.ClaimFits (capacity : Nat) (h : Handover) : Prop :=
  capacity ≤ h.claimed.length → ∀ oldest, h.claimed.head? = some oldest → h.startedAt oldest = none

/-- All that a call can do to what is handed out: the ids are those it returns, and
the proposition says that no bounded queue overflows. -/
inductive HandoverStep (capacity : Nat) (h : Handover) : List Uuid → Prop → Handover → Prop
  | quiet : HandoverStep capacity h [] True h
  | enqueue (id : Uuid) (hid : id ∉ h.inflight) :
      HandoverStep capacity h [] True { h with record := update h.record id none }
  | retire : HandoverStep capacity h [] True .idle
  | take (taken delivered consumed : List Uuid) (now : Timestamp) (hnodup : taken.Nodup)
      (hsplit : taken.Perm (delivered ++ consumed)) (hnew : ∀ id ∈ taken, h.record id = none) :
      HandoverStep capacity h delivered (h.inflight.length + taken.length ≤ capacity)
        (h.take capacity taken delivered consumed now)
  | claim (id : Uuid) (hrecord : h.record id = some .inflight) (hid : id ∈ h.inflight) :
      HandoverStep capacity h [] (h.ClaimFits capacity) (h.claim capacity id)
  | complete (id : Uuid) : HandoverStep capacity h [] True (h.complete id)
  | cancel (id : Uuid) (hrecord : h.record id = some .inflight) :
      HandoverStep capacity h [] True
        { h with record := update h.record id (some .cancellationRequested) }
  | acknowledge (id : Uuid) (hrecord : h.record id = some .cancellationRequested) :
      HandoverStep capacity h [] True (h.acknowledge id)

/-- What the bridge says of a session's actions handed out. -/
def CancellableBridge.handover (b : CancellableBridge) (sessionId : SessionId) : Handover :=
  { record := fun id => b.authority.handed (sessionId, id)
    inflight := actionIds (b.queues sessionId).inflight
    claimed := actionIds (b.queues sessionId).claimed
    startedAt := (b.queues sessionId).actionStartedAt }

/-! ## The calls take its steps -/

section
variable {b : CancellableBridge} {sessionId other : SessionId}

/-- A call that leaves the record and a session's queues of delivered actions alone. -/
theorem handover_eq {b' : CancellableBridge}
    (hrecord : ∀ id, b'.authority.handed (other, id) = b.authority.handed (other, id))
    (hinflight : (b'.queues other).inflight = (b.queues other).inflight)
    (hclaimed : (b'.queues other).claimed = (b.queues other).claimed)
    (hstarted : (b'.queues other).actionStartedAt = (b.queues other).actionStartedAt) :
    b'.handover other = b.handover other :=
  Handover.ext (funext hrecord) (congrArg actionIds hinflight) (congrArg actionIds hclaimed)
    hstarted

/-- What the queues of a session become does not concern the others. -/
theorem queues_setQueues_of_ne (queues : ActionQueues) (h : other ≠ sessionId) :
    (b.setQueues sessionId queues).queues other = b.queues other :=
  update_of_ne h ..

theorem queues_setQueues {queues : ActionQueues} :
    (b.setQueues sessionId queues).queues sessionId = queues :=
  update_self ..

/-- The record of a session other than the one whose entry changed. -/
theorem ite_other {α : Type} {id id' : Uuid} {x y : α} (h : other ≠ sessionId) :
    (if ((other, id) : ActionKey) = (sessionId, id') then x else y) = y :=
  if_neg fun he => h (congrArg Prod.fst he)

theorem ite_same {α : Type} {f : Uuid → α} {id id' : Uuid} {x : α} :
    (if ((sessionId, id) : ActionKey) = (sessionId, id') then x else f id) =
      update f id' x id := by
  by_cases h : id = id'
  · rw [h, if_pos rfl, update_self]
  · rw [if_neg fun he => h (congrArg Prod.snd he), update_of_ne h]

/-- A call that changes one session's entry and queues. -/
theorem handover_of_session (b' : CancellableBridge) {h : Handover}
    (hrecord : ∀ other, other ≠ sessionId →
      ∀ id, b'.authority.handed (other, id) = b.authority.handed (other, id))
    {queues : ActionQueues} (hqueues : b'.queues = (b.setQueues sessionId queues).queues)
    (hsame : ∀ id, b'.authority.handed (sessionId, id) = h.record id)
    (hinflight : actionIds queues.inflight = h.inflight)
    (hclaimed : actionIds queues.claimed = h.claimed)
    (hstarted : queues.actionStartedAt = h.startedAt) (other : SessionId) :
    b'.handover other = if other = sessionId then h else b.handover other := by
  by_cases hsession : other = sessionId
  · subst hsession
    rw [if_pos rfl]
    have hself : b'.queues other = queues := (congrFun hqueues other).trans queues_setQueues
    refine Handover.ext (funext hsame) ?_ ?_ ?_
    · rw [← hinflight, ← hself]
      rfl
    · rw [← hclaimed, ← hself]
      rfl
    · rw [← hstarted, ← hself]
      rfl
  · have hother := (congrFun hqueues other).trans (queues_setQueues_of_ne _ hsession)
    rw [if_neg hsession]
    exact handover_eq (hrecord other hsession) (congrArg _ hother) (congrArg _ hother)
      (congrArg _ hother)

/-- A call that takes one session a step further. -/
theorem step_of_session {b' : CancellableBridge} {h : Handover}
    (hnext : b'.handover other = if other = sessionId then h else b.handover other)
    (hstep : HandoverStep b.actionCapacity (b.handover sessionId) [] True h) :
    HandoverStep b.actionCapacity (b.handover other) [] True (b'.handover other) := by
  rw [hnext]
  split_ifs with hsession
  · rwa [hsession]
  · exact .quiet

/-- New queues with the same actions handed out. -/
theorem handover_setQueues {queues : ActionQueues}
    (hinflight : queues.inflight = (b.queues sessionId).inflight)
    (hclaimed : queues.claimed = (b.queues sessionId).claimed)
    (hstarted : queues.actionStartedAt = (b.queues sessionId).actionStartedAt) :
    (b.setQueues sessionId queues).handover other = b.handover other := by
  rw [handover_of_session (b := b) (b.setQueues sessionId queues) (h := b.handover sessionId)
    (fun _ _ _ => rfl) rfl (fun _ => rfl) (congrArg actionIds hinflight)
    (congrArg actionIds hclaimed) hstarted]
  exact ite_eq_right_iff.mpr fun h => by rw [h]

/-- An action not in flight is queued. -/
theorem handover_enqueued (b' : CancellableBridge) {action : BridgeAction} {queues : ActionQueues}
    (hauthority : b'.authority = b.authority.recordEnqueued action b.actionCapacity)
    (hqueues : b'.queues = (b.setQueues action.sessionId queues).queues)
    (hinflight : queues.inflight = (b.queues action.sessionId).inflight)
    (hclaimed : queues.claimed = (b.queues action.sessionId).claimed)
    (hstarted : queues.actionStartedAt = (b.queues action.sessionId).actionStartedAt)
    (hid : action.id ∉ (b.handover action.sessionId).inflight) (sessionId : SessionId) :
    HandoverStep b.actionCapacity (b.handover sessionId) [] True (b'.handover sessionId) := by
  have hrecord : ∀ k, b'.authority.handed k = _ := fun k => by
    rw [hauthority, handed_recordEnqueued]
  refine step_of_session (handover_of_session b' (fun other hother id => ?_) hqueues (fun id => ?_)
    (congrArg actionIds hinflight) (congrArg actionIds hclaimed) hstarted sessionId)
    (.enqueue action.id hid)
  · exact (hrecord _).trans (ite_other hother)
  · exact (hrecord _).trans (ite_same (f := fun id => b.authority.handed (action.sessionId, id)))

open CancellableBridge

theorem handover_enqueueAction (action : BridgeAction)
    (hid : action.id ∉ (b.handover action.sessionId).inflight) (sessionId : SessionId) :
    HandoverStep b.actionCapacity (b.handover sessionId) [] True
      ((b.enqueueAction action).handover sessionId) := by
  let queues := (b.queues action.sessionId).enqueueAction b.actionCapacity action
  obtain ⟨hinflight, hclaimed, hstarted⟩ :
      queues.inflight = (b.queues action.sessionId).inflight ∧
        queues.claimed = (b.queues action.sessionId).claimed ∧
        queues.actionStartedAt = (b.queues action.sessionId).actionStartedAt := by
    dsimp only [queues, ActionQueues.enqueueAction]
    split <;> exact ⟨rfl, rfl, rfl⟩
  by_cases hcapture : action.action.isInternalCaptureAction = true
  · -- the authority has no part in captures
    have hnext : b.enqueueAction action = b.setQueues action.sessionId queues := by
      unfold enqueueAction
      rw [if_pos hcapture]
    rw [hnext, handover_setQueues hinflight hclaimed hstarted]
    exact .quiet
  · refine handover_enqueued _ ?_ ?_ hinflight hclaimed hstarted hid sessionId <;>
      unfold enqueueAction <;> rw [if_neg hcapture]

theorem handover_enqueuePrebound (action : BridgeAction) (sessionId : SessionId) :
    HandoverStep b.actionCapacity (b.handover sessionId) [] True
      ((b.enqueuePreboundPublicAction action).2.handover sessionId) := by
  let q := b.queues action.sessionId
  unfold enqueuePreboundPublicAction ActionQueues.enqueuePreboundPublicAction
  by_cases hcapture : action.action.isInternalCaptureAction = true
  · rw [if_pos hcapture]
    exact .quiet
  · rw [if_neg hcapture, if_neg hcapture]
    by_cases hrefused : q.duplicate action.id = true ∨ b.actionCapacity ≤ q.actions.length
    · rw [if_pos hrefused]
      exact .quiet
    · rw [if_neg hrefused]
      let next : CancellableBridge :=
        { b.setQueues action.sessionId { q with actions := q.actions ++ [action] } with
          authority := b.authority.recordEnqueued action b.actionCapacity }
      -- an action in flight is a duplicate
      refine handover_enqueued next rfl rfl rfl rfl rfl (fun hin => hrefused (Or.inl ?_)) sessionId
      have hheld : holdsId q.inflight action.id = true := mem_actionIds.mp hin
      unfold ActionQueues.duplicate
      rw [hheld]
      simp

theorem handover_discardPublicActions (sessionId other : SessionId) :
    HandoverStep b.actionCapacity (b.handover other) [] True
      ((b.discardPublicActionsForSession sessionId).2.handover other) := by
  have hrecord := fun other id =>
    handed_releaseSession (a := b.authority) sessionId (other, id)
  exact step_of_session (handover_of_session (h := .idle)
    (b.discardPublicActionsForSession sessionId).2
    (fun other hother id => (hrecord other id).trans (if_neg hother)) rfl
    (fun id => (hrecord sessionId id).trans (if_pos rfl)) rfl rfl rfl other) .retire

theorem handover_takePublicActions (h : Coherent b)
    (hroom : (b.handover sessionId).inflight.length ≤ b.actionCapacity) (limit : Nat)
    (now : Timestamp) (other : SessionId) :
    ∃ fits, HandoverStep b.actionCapacity (b.handover other)
        (if other = sessionId then actionIds (b.takePublicActions sessionId limit now).1 else [])
        fits ((b.takePublicActions sessionId limit now).2.handover other) ∧
      ((b.handover sessionId).inflight.length + min limit (b.queues sessionId).actions.length ≤
        b.actionCapacity → fits) := by
  let q := b.queues sessionId
  let taken := q.actions.take limit
  let looped := b.authority.deliverTaken sessionId taken
  let handedOut := (q.takePublicActions b.actionCapacity limit now).2
  have hnodup : (actionIds taken).Nodup := by
    refine (h.nodup sessionId).sublist ?_
    exact (take_sublist limit q.actions).map _
  have hpushed : actionIds handedOut.inflight =
      (b.handover sessionId).pushed b.actionCapacity (actionIds taken) := by
    have hfold : handedOut.inflight = (q.inflight ++ taken).drop
        ((q.inflight ++ taken).length - b.actionCapacity) := by
      refine foldl_pushBounded ?_ taken
      rwa [handover, actionIds, length_map] at hroom
    rw [hfold]
    simp only [actionIds, map_drop, map_append, length_append, Handover.pushed,
      handover, length_map]
    rfl
  obtain ⟨hdiff, hclaimed, hstarted⟩ := ActionQueues.discardAll_ids looped.2.1 handedOut
  have hnext : (b.takePublicActions sessionId limit now).2.handover other =
      if other = sessionId then (b.handover sessionId).take b.actionCapacity (actionIds taken)
        (actionIds looped.1) looped.2.1 now else b.handover other := by
    refine handover_of_session (b := b) (b.takePublicActions sessionId limit now).2
      (fun other hother id => ?_) rfl (fun id => ?_) ?_ ?_ ?_ other
    · show looped.2.2.pruneCancelledTombstones.handed (other, id) = _
      rw [handed_prune, handed_deliverTaken]
      exact if_neg fun hdelivered => hother hdelivered.1
    · show looped.2.2.pruneCancelledTombstones.handed (sessionId, id) = _
      rw [handed_prune, handed_deliverTaken]
      exact if_congr (and_iff_right rfl) rfl rfl
    · exact hdiff.trans (congrArg (·.diff looped.2.1) hpushed)
    · exact congrArg actionIds hclaimed
    · funext id
      refine (hstarted id).trans ?_
      rw [hpushed]
      exact congrArg _ (ActionQueues.started_foldl taken q.actionStartedAt now id)
  rw [hnext]
  by_cases hsession : other = sessionId
  · subst hsession
    rw [if_pos rfl, if_pos rfl]
    refine ⟨_, .take _ _ _ now hnodup
      (deliverTaken_perm other taken) fun id hid => ?_, fun hroom => ?_⟩
    · -- what waits is not handed out
      have hwaits : Waits b (other, id) :=
        ((take_sublist limit q.actions).map (·.id)).subset hid
      rcases h.waiting _ hwaits with hpending | hcancelled
      · exact handed_of_state hpending rfl
      · exact handed_of_state hcancelled rfl
    · rwa [actionIds, length_map, length_take]
  · rw [if_neg hsession, if_neg hsession]
    exact ⟨_, .quiet, fun _ => trivial⟩

/-- A claim takes an action in flight that the authority records as such, and no
other but a capture. -/
theorem claimAction_cases (actionId : Uuid)
    (hcapture : b.authority.stateOf (sessionId, actionId) ≠ none →
      actionId ∉ actionIds (b.queues sessionId).captureInflight)
    (hrecorded : ∀ id ∈ (b.handover sessionId).inflight, (b.handover sessionId).record id ≠ none) :
    ((b.handover sessionId).record actionId = some .inflight ∧
        actionId ∈ (b.handover sessionId).inflight ∧
        (∃ action, action.id = actionId ∧ (b.claimAction sessionId actionId).1 = some action) ∧
        ∀ other, (b.claimAction sessionId actionId).2.handover other =
          if other = sessionId then (b.handover sessionId).claim b.actionCapacity actionId
          else b.handover other) ∨
      (¬ ((b.handover sessionId).record actionId = some .inflight ∧
          actionId ∈ (b.handover sessionId).inflight) ∧
        ((b.claimAction sessionId actionId).1 = none ∨
          actionId ∈ actionIds (b.queues sessionId).captureInflight) ∧
        ∀ other, (b.claimAction sessionId actionId).2.handover other = b.handover other) := by
  let key : ActionKey := (sessionId, actionId)
  cases hstate : b.authority.stateOf key with
  | none =>
    have hrecord : (b.handover sessionId).record actionId = none :=
      handed_none hstate
    have hnot : actionId ∉ (b.handover sessionId).inflight := fun hid =>
      hrecorded actionId hid hrecord
    have hclaim : b.claimAction sessionId actionId =
        (((b.queues sessionId).claimAction b.actionCapacity actionId).1,
          b.setQueues sessionId ((b.queues sessionId).claimAction b.actionCapacity actionId).2) := by
      unfold claimAction
      rw [hstate]
    refine .inr ⟨fun h => hnot h.2, ?_, fun other => ?_⟩
    · by_cases hin : actionId ∈ actionIds (b.queues sessionId).captureInflight
      · exact .inr hin
      · rcases ActionQueues.claimAction_public b.actionCapacity hin with
          ⟨hinflight, -⟩ | ⟨-, hbase⟩
        · exact absurd hinflight hnot
        · rw [hclaim, hbase]
          exact .inl rfl
    · rw [hclaim]
      obtain ⟨hinflight, hclaimed, hstarted⟩ :=
        ActionQueues.claimAction_other b.actionCapacity hnot
      exact handover_setQueues hinflight hclaimed hstarted
  | some state =>
    have hnotCapture := hcapture (by rw [hstate]; exact Option.some_ne_none state)
    by_cases hinflight : state = .inflight
    · have hrecord : (b.handover sessionId).record actionId = some .inflight :=
        handed_eq_some.mpr ⟨hinflight ▸ hstate, rfl⟩
      rcases ActionQueues.claimAction_public b.actionCapacity hnotCapture with
        ⟨hin, action, hid, hbase⟩ | ⟨hnot, hbase⟩
      · have hclaim : b.claimAction sessionId actionId = (some action,
            { b.setQueues sessionId
                { b.queues sessionId with
                  inflight := removeId (b.queues sessionId).inflight actionId
                  claimed := pushBounded b.actionCapacity (b.queues sessionId).claimed action } with
              authority := b.authority.removeAction key }) := by
          unfold claimAction
          rw [hbase, hstate]
          exact if_neg (not_not.mpr hinflight)
        refine .inl ⟨hrecord, hin, ⟨action, hid, by rw [hclaim]⟩, ?_⟩
        rw [hclaim]
        have hremoved := handed_removeAction (a := b.authority) key
        refine handover_of_session _ (fun other hother id => (hremoved _).trans (ite_other hother))
          rfl (fun id => (hremoved _).trans
            (ite_same (f := fun id => b.authority.handed (sessionId, id))))
          (actionIds_removeId _ _) ?_ rfl
        rw [actionIds_pushBounded, hid]
        rfl
      · have hclaim : b.claimAction sessionId actionId = (none, b) := by
          unfold claimAction
          rw [hbase, hstate]
          exact if_neg (not_not.mpr hinflight)
        rw [hclaim]
        exact .inr ⟨fun h => hnot h.2, Or.inl rfl, fun _ => rfl⟩
    · have hclaim : b.claimAction sessionId actionId = (none, b) := by
        unfold claimAction
        rw [hstate]
        exact if_pos hinflight
      rw [hclaim]
      refine .inr ⟨fun h => hinflight ?_, Or.inl rfl, fun _ => rfl⟩
      have hsame := (handed_eq_some.mp h.1).1
      rw [hstate] at hsame
      exact Option.some.inj hsame

theorem handover_claimAction (actionId : Uuid)
    (hcapture : b.authority.stateOf (sessionId, actionId) ≠ none →
      actionId ∉ actionIds (b.queues sessionId).captureInflight)
    (hrecorded : ∀ id ∈ (b.handover sessionId).inflight, (b.handover sessionId).record id ≠ none)
    (other : SessionId) :
    ∃ fits, HandoverStep b.actionCapacity (b.handover other) [] fits
        ((b.claimAction sessionId actionId).2.handover other) ∧
      (((b.handover sessionId).record actionId = some .inflight →
        (b.handover sessionId).ClaimFits b.actionCapacity) → fits) := by
  rcases claimAction_cases actionId hcapture hrecorded with
    ⟨hrecord, hin, -, hnext⟩ | ⟨-, -, hnext⟩
  · rw [hnext]
    split_ifs with hsession
    · rw [hsession]
      exact ⟨_, .claim actionId hrecord hin, fun hfits => hfits hrecord⟩
    · exact ⟨_, .quiet, fun _ => trivial⟩
  · rw [hnext]
    exact ⟨_, .quiet, fun _ => trivial⟩

/-- What a completion does to the queues of delivered actions. -/
theorem completeAction_cases (q : ActionQueues) (capacity : Nat) (origin : CompletionOrigin)
    (resultId : Uuid) (now : Timestamp) :
    (q.completeAction capacity origin resultId now).inflight = q.inflight ∧
      (((q.completeAction capacity origin resultId now).claimed = q.claimed ∧
          (q.completeAction capacity origin resultId now).actionStartedAt = q.actionStartedAt) ∨
        ∃ id, (q.completeAction capacity origin resultId now).claimed = removeId q.claimed id ∧
          (q.completeAction capacity origin resultId now).actionStartedAt =
            update q.actionStartedAt id none) := by
  -- an action without a start has none afterwards
  have hnone : ∀ {id : Uuid}, q.actionStartedAt id = none →
      q.actionStartedAt = update q.actionStartedAt id none := by
    intro id hid
    rw [← hid, update_eq_self]
  cases origin with
  | action action =>
    unfold ActionQueues.completeAction
    cases hscope : ActionScope.fromAction action with
    | isPublic =>
      simp only [hscope, ActionQueues.removeClaimedForScope]
      cases hstarted : q.actionStartedAt action.id with
      | none => exact ⟨rfl, Or.inr ⟨action.id, rfl, hnone hstarted⟩⟩
      | some startedAt => exact ⟨rfl, Or.inr ⟨action.id, rfl, rfl⟩⟩
    | internalCapture =>
      simp only [hscope, ActionQueues.removeClaimedForScope]
      exact ⟨trivial, Or.inl ⟨trivial, trivial⟩⟩
  | session sessionId =>
    unfold ActionQueues.completeAction ActionQueues.takeClaimedById
    cases hcapture : q.captureClaimed.find? fun action => action.id = resultId with
    | some action => exact ⟨rfl, Or.inl ⟨rfl, rfl⟩⟩
    | none =>
      cases hclaimed : q.claimed.find? fun action => action.id = resultId with
      | none => exact ⟨rfl, Or.inl ⟨rfl, rfl⟩⟩
      | some action =>
        have hid : action.id = resultId := by simpa using find?_some hclaimed
        dsimp only
        rw [hid]
        cases hstarted : q.actionStartedAt resultId with
        | none => exact ⟨rfl, Or.inr ⟨resultId, rfl, hnone hstarted⟩⟩
        | some startedAt => exact ⟨rfl, Or.inr ⟨resultId, rfl, rfl⟩⟩

theorem handover_completeAction (origin : CompletionOrigin) (resultId : Uuid) (now : Timestamp)
    (other : SessionId) :
    HandoverStep b.actionCapacity (b.handover other) [] True
      ((b.completeAction origin resultId now).handover other) := by
  obtain ⟨hinflight, hsame | ⟨id, hclaimed, hstarted⟩⟩ := completeAction_cases
    (b.queues origin.sessionId) b.actionCapacity origin resultId now
  · exact step_of_session (handover_of_session (b := b) (b.completeAction origin resultId now)
      (fun _ _ _ => rfl) rfl (fun _ => rfl) (congrArg actionIds hinflight)
      (congrArg actionIds hsame.1) hsame.2 other) .quiet
  · exact step_of_session (handover_of_session (b := b) (b.completeAction origin resultId now)
      (fun _ _ _ => rfl) rfl (fun _ => rfl) (congrArg actionIds hinflight)
      ((congrArg actionIds hclaimed).trans (actionIds_removeId _ _)) hstarted other) (.complete id)

/-- A call that changes nothing but the record of one action. -/
theorem handover_recorded (b' : CancellableBridge) {id : Uuid} {state : Option ActionLifecycle}
    (hrecord : ∀ k, b'.authority.handed k = if k = (sessionId, id) then state
      else b.authority.handed k) (hqueues : b'.queues = b.queues)
    (hstep : HandoverStep b.actionCapacity (b.handover sessionId) [] True
      { b.handover sessionId with
        record := update (b.handover sessionId).record id state }) (other : SessionId) :
    HandoverStep b.actionCapacity (b.handover other) [] True (b'.handover other) := by
  have hsame : b'.queues = (b.setQueues sessionId (b.queues sessionId)).queues :=
    hqueues.trans (update_eq_self sessionId b.queues).symm
  refine step_of_session (handover_of_session b' (fun other hother id' => ?_) hsame (fun id' => ?_)
    rfl rfl rfl other) hstep
  · rw [hrecord]
    exact ite_other hother
  · rw [hrecord]
    exact ite_same (f := fun id => b.authority.handed (sessionId, id))

theorem handover_requestActionCancellation (actionId : Uuid) (now : Timestamp)
    (other : SessionId) :
    HandoverStep b.actionCapacity (b.handover other) [] True
      ((b.requestActionCancellation sessionId actionId now).2.handover other) := by
  let key : ActionKey := (sessionId, actionId)
  unfold requestActionCancellation
  dsimp only
  split
  · exact .quiet
  · next hstate =>
    -- an action that waits was not handed out, and a cancelled one is not either
    have hnone : b.authority.handed key = none :=
      handed_of_state hstate rfl
    let next : CancellableBridge := { b with authority := b.authority.markCancelled key now }
    have hsame : next.handover other = b.handover other := by
      refine handover_eq (fun id => ?_) rfl rfl rfl
      refine (handed_markCancelled ..).trans ?_
      split_ifs with hkey
      · rw [hkey]
        exact hnone.symm
      · rfl
    show HandoverStep b.actionCapacity (b.handover other) [] True (next.handover other)
    rw [hsame]
    exact .quiet
  · next hstate =>
    have hrecord : (b.handover sessionId).record actionId = some .inflight :=
      handed_eq_some.mpr ⟨hstate, rfl⟩
    let next : CancellableBridge :=
      { b with
        authority := b.authority.setEntry key
          (some { state := .cancellationRequested, cancellationRequestedAt := some now }) }
    exact handover_recorded next (fun k => handed_setEntry key k _) rfl
      (.cancel actionId hrecord) other
  · exact .quiet
  · exact .quiet

theorem handover_acknowledgeActionCancellation (actionId : Uuid) (now : Timestamp)
    (other : SessionId) :
    HandoverStep b.actionCapacity (b.handover other) [] True
      ((b.acknowledgeActionCancellation sessionId actionId now).2.handover other) := by
  unfold acknowledgeActionCancellation
  dsimp only
  cases hentry : b.authority.actions (sessionId, actionId) with
  | none => exact .quiet
  | some entry =>
    obtain ⟨state, requestedAt⟩ := entry
    cases state with
    | cancelled | pending | inflight => exact .quiet
    | cancellationRequested =>
      have hstate : b.authority.stateOf (sessionId, actionId) = some .cancellationRequested := by
        unfold ActionCancellationAuthority.stateOf
        rw [hentry]
        rfl
      have hrecord : (b.handover sessionId).record actionId = some .cancellationRequested :=
        handed_eq_some.mpr ⟨hstate, rfl⟩
      obtain ⟨hinflight, hclaimed, hstarted⟩ :=
        ActionQueues.discardPublicAction_ids (q := b.queues sessionId) actionId
      let next : CancellableBridge :=
        { b.setQueues sessionId ((b.queues sessionId).discardPublicAction actionId).2 with
          authority := b.authority.markCancelled (sessionId, actionId) (requestedAt.getD now) }
      exact step_of_session (handover_of_session next
        (fun other hother id =>
          (handed_markCancelled ..).trans (ite_other hother)) rfl
        (fun id => (handed_markCancelled ..).trans
          (ite_same (f := fun id => b.authority.handed (sessionId, id))))
        hinflight (congrArg actionIds hclaimed) hstarted other) (.acknowledge actionId hrecord)

end

end Localview
