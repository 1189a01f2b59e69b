import Localview.ActionCancellation
import Mathlib.Data.List.Nodup

/-! # What a call does to the waiting actions

An action *waits* while it is in a public queue.  The authority keeps its own copy
of each public queue, and one lifecycle entry for whatever waits: that the two
agree (`Coherent`) is what makes a cancellation stick.

`Effect` says everything a call of the bridge can do to the waiting actions and
their entries; each call is shown to have one, and the delivery of actions is
derived from it alone.
-/
namespace Localview
open List Function ActionCancellationAuthority

/-! ## The authority's own steps -/

namespace ActionCancellationAuthority
variable {a : ActionCancellationAuthority}

@[simp] theorem queued_setEntry (key : ActionKey) (entry : Option ActionLifecycleEntry) :
    (a.setEntry key entry).queued = a.queued := rfl

theorem stateOf_setEntry (key k : ActionKey) (entry : Option ActionLifecycleEntry) :
    (a.setEntry key entry).stateOf k = if k = key then entry.map (·.state) else a.stateOf k := by
  show (update a.actions key entry k).map (·.state) = _
  by_cases h : k = key
  · rw [if_pos h, h, update_self]
  · rw [if_neg h, update_of_ne h]
    rfl

/-- The entries are as before, save that some of the keys in `gone` have none. -/
def Forgets (a a' : ActionCancellationAuthority) (gone : ActionKey → Prop) : Prop :=
  ∀ k, a'.stateOf k = a.stateOf k ∨ (gone k ∧ a'.stateOf k = none)

theorem Forgets.refl (a : ActionCancellationAuthority) (gone : ActionKey → Prop) :
    Forgets a a gone := fun _ => Or.inl rfl

theorem Forgets.trans {a a' a'' : ActionCancellationAuthority} {gone : ActionKey → Prop}
    (h : Forgets a a' gone) (h' : Forgets a' a'' gone) : Forgets a a'' gone := by
  intro k
  rcases h' k with hk' | hk'
  · rcases h k with hk | ⟨hgone, hk⟩
    · exact .inl (hk'.trans hk)
    · exact .inr ⟨hgone, hk'.trans hk⟩
  · exact .inr hk'

theorem Forgets.mono {a a' : ActionCancellationAuthority} {gone gone' : ActionKey → Prop}
    (h : Forgets a a' gone) (hgone : ∀ k, gone k → gone' k) : Forgets a a' gone' := by
  intro k
  rcases h k with hk | ⟨hk, hnone⟩
  · exact .inl hk
  · exact .inr ⟨hgone k hk, hnone⟩

@[simp] theorem queued_forgetIf (key : ActionKey) (state : ActionLifecycle) :
    (a.forgetIf key state).queued = a.queued := by
  unfold forgetIf
  split <;> rfl

theorem forgets_forgetIf (key : ActionKey) (state : ActionLifecycle) :
    Forgets a (a.forgetIf key state) (fun k => k = key) := by
  intro k
  unfold forgetIf
  split_ifs
  · rw [stateOf_setEntry]
    by_cases hk : k = key
    · exact .inr ⟨hk, if_pos hk⟩
    · exact .inl (if_neg hk)
  · exact .inl rfl

theorem isQueued_iff {key : ActionKey} : a.isQueued key = true ↔ key.2 ∈ a.queued key.1 := by
  unfold isQueued
  exact contains_iff_mem

theorem queued_pruneExcess (excess : Nat) : (pruneExcess excess a).queued = a.queued := by
  induction excess generalizing a with
  | zero => rfl
  | succ excess ih =>
    unfold pruneExcess
    split
    · rfl
    · rw [ih, queued_forgetIf]

/-- Only keys that are not queued are pruned. -/
theorem forgets_pruneExcess (excess : Nat) :
    Forgets a (pruneExcess excess a) (fun k => k.2 ∉ a.queued k.1) := by
  induction excess generalizing a with
  | zero => exact Forgets.refl a _
  | succ excess ih =>
    unfold pruneExcess
    split
    · exact Forgets.refl a _
    · next key hfind =>
      have hkey : key.2 ∉ a.queued key.1 := by
        have hnot := find?_some hfind
        rw [Bool.not_eq_true'] at hnot
        intro hmem
        rw [isQueued_iff.mpr hmem] at hnot
        cases hnot
      refine Forgets.trans ?_ (ih.mono fun k hk => ?_)
      · refine (forgets_forgetIf key .cancelled).mono fun k hk => ?_
        rw [hk]
        exact hkey
      · rw [queued_forgetIf] at hk
        exact hk

theorem queued_prune : a.pruneCancelledTombstones.queued = a.queued := queued_pruneExcess _

theorem forgets_prune :
    Forgets a a.pruneCancelledTombstones (fun k => k.2 ∉ a.queued k.1) := forgets_pruneExcess _

theorem queued_evictQueued (capacity : Nat) (sessionId : SessionId) (queue : List Uuid) :
    (evictQueued capacity sessionId queue a).queued =
      update a.queued sessionId (queue.drop (queue.length - capacity)) := by
  induction queue generalizing a with
  | nil => rw [drop_nil]; rfl
  | cons evictedId queue ih =>
    unfold evictQueued
    split_ifs with hfull
    · have hexcess : (evictedId :: queue).length - capacity = queue.length - capacity + 1 := by
        rw [length_cons] at hfull ⊢
        omega
      rw [ih, queued_forgetIf, hexcess, drop_succ_cons]
    · rw [Nat.sub_eq_zero_of_le (Nat.le_of_not_lt hfull), drop_zero]

/-- Only evicted ids lose their entries. -/
theorem forgets_evictQueued (capacity : Nat) (sessionId : SessionId) (queue : List Uuid) :
    Forgets a (evictQueued capacity sessionId queue a)
      (fun k => k.1 = sessionId ∧ k.2 ∈ queue.take (queue.length - capacity)) := by
  induction queue generalizing a with
  | nil => exact Forgets.refl a _
  | cons evictedId queue ih =>
    unfold evictQueued
    split_ifs with hfull
    · have hexcess : (evictedId :: queue).length - capacity = queue.length - capacity + 1 := by
        rw [length_cons] at hfull ⊢
        omega
      rw [hexcess, take_succ_cons]
      refine Forgets.trans ((forgets_forgetIf _ _).mono fun k hk => ?_)
        (ih.mono fun k hk => ⟨hk.1, mem_cons_of_mem _ hk.2⟩)
      rw [hk]
      exact ⟨rfl, mem_cons_self⟩
    · exact fun k => Or.inl rfl

/-- What `record_enqueued` leaves: the queue with the new id behind it, bounded,
a pending entry for it, and no entry lost of an id still queued. -/
theorem recordEnqueued_spec (action : BridgeAction) (capacity : Nat)
    (hnodup : (a.queued action.sessionId ++ [action.id]).Nodup) :
    (a.recordEnqueued action capacity).queued = update a.queued action.sessionId
        ((a.queued action.sessionId ++ [action.id]).drop
          ((a.queued action.sessionId ++ [action.id]).length - capacity)) ∧
      ∀ k, ((a.recordEnqueued action capacity).stateOf k =
          if k = (action.sessionId, action.id) then some .pending else a.stateOf k) ∨
        (k.2 ∉ (a.recordEnqueued action capacity).queued k.1 ∧
          (a.recordEnqueued action capacity).stateOf k = none) := by
  let ids := a.queued action.sessionId ++ [action.id]
  let key : ActionKey := (action.sessionId, action.id)
  let pending := a.setEntry key (some { state := .pending, cancellationRequestedAt := none })
  have hqueued : (a.recordEnqueued action capacity).queued =
      update a.queued action.sessionId (ids.drop (ids.length - capacity)) :=
    queued_prune.trans (queued_evictQueued capacity action.sessionId ids)
  refine ⟨hqueued, fun k => ?_⟩
  -- an evicted id is not in the rest of the queue, and pruning spares what is
  have hevicted : Forgets pending (evictQueued capacity action.sessionId ids pending)
      (fun k => k.2 ∉ (a.recordEnqueued action capacity).queued k.1) := by
    refine (forgets_evictQueued capacity action.sessionId ids).mono ?_
    rintro k ⟨hk, htake⟩
    rw [hqueued, hk, update_self]
    exact fun hdrop => disjoint_take_drop hnodup (Nat.le_refl _) htake hdrop
  have hpruned : Forgets (evictQueued capacity action.sessionId ids pending)
      (a.recordEnqueued action capacity)
      (fun k => k.2 ∉ (a.recordEnqueued action capacity).queued k.1) := by
    refine forgets_prune.mono fun k hk => ?_
    have hsame : (a.recordEnqueued action capacity).queued =
        (evictQueued capacity action.sessionId ids pending).queued := queued_prune
    rw [hsame]
    exact hk
  rcases hevicted.trans hpruned k with hk | hk
  · exact .inl (hk.trans (stateOf_setEntry key k _))
  · exact .inr hk

/-- What `mark_cancelled` leaves: the same queues, a cancelled entry where there
was one, and no entry lost of an id still queued. -/
theorem markCancelled_spec (key : ActionKey) (now : Timestamp) (h : a.stateOf key ≠ none) :
    (a.markCancelled key now).queued = a.queued ∧
      ∀ k, ((a.markCancelled key now).stateOf k =
          if k = key then some .cancelled else a.stateOf k) ∨
        (k.2 ∉ a.queued k.1 ∧ (a.markCancelled key now).stateOf k = none) := by
  have hsome : (a.actions key).isSome := by
    rw [Option.isSome_iff_ne_none]
    intro hnone
    rw [stateOf, hnone] at h
    exact h rfl
  let marked := a.setEntry key (some { state := .cancelled, cancellationRequestedAt := some now })
  have hmarked : ∀ order : List ActionKey, ∀ k,
      ActionCancellationAuthority.stateOf { marked with cancelledOrder := order } k =
        if k = key then some .cancelled else a.stateOf k :=
    fun _ k => stateOf_setEntry key k _
  unfold markCancelled
  rw [if_pos hsome]
  dsimp only
  split_ifs
  · refine ⟨queued_prune, fun k => ?_⟩
    rcases forgets_prune (a := marked) k with hk | hk
    · exact .inl (hk.trans (hmarked _ k))
    · exact .inr hk
  · refine ⟨queued_prune, fun k => ?_⟩
    rcases forgets_prune (a := { marked with cancelledOrder := a.cancelledOrder ++ [key] }) k with
      hk | hk
    · exact .inl (hk.trans (hmarked _ k))
    · exact .inr hk

theorem removeQueued_of_not_mem {sessionId : SessionId} {actionId : Uuid}
    (h : actionId ∉ a.queued sessionId) : a.removeQueued sessionId actionId = a := by
  unfold removeQueued
  rw [erase_of_not_mem h, update_eq_self]

/-- What the loop of `take_public_actions` leaves, the actions taken being the
first of the authority's own queue: it delivers those that are pending, and makes
nothing else of the others than to drop them from the queue. -/
theorem deliverTaken_spec (sessionId : SessionId) (taken : List BridgeAction) (rest : List Uuid)
    (hqueue : a.queued sessionId = actionIds taken ++ rest) (hnodup : (actionIds taken).Nodup) :
    let (deliver, _, a') := a.deliverTaken sessionId taken
    a'.queued = update a.queued sessionId rest ∧
      (deliver.Sublist taken) ∧
      (∀ action ∈ deliver, a.stateOf (sessionId, action.id) = some .pending) ∧
      ∀ k, a'.stateOf k = a.stateOf k ∨
        (a.stateOf k = some .pending ∧ k.1 = sessionId ∧ k.2 ∈ actionIds taken ∧
          a'.stateOf k = some .inflight) := by
  induction taken generalizing a with
  | nil =>
    refine ⟨?_, List.Sublist.refl _, forall_mem_nil _, fun k => Or.inl rfl⟩
    rw [show rest = a.queued sessionId from hqueue.symm, update_eq_self]
  | cons action taken ih =>
    obtain ⟨hfirst, hnodup'⟩ := nodup_cons.mp hnodup
    have hremoved : (a.removeQueued sessionId action.id).queued =
        update a.queued sessionId (actionIds taken ++ rest) := by
      show update a.queued sessionId ((a.queued sessionId).erase action.id) = _
      rw [hqueue]
      exact congrArg _ (erase_cons_head ..)
    have hupdate : ∀ q : SessionId → List Uuid,
        q = update a.queued sessionId (actionIds taken ++ rest) →
          q sessionId = actionIds taken ++ rest ∧
            update q sessionId rest = update a.queued sessionId rest := by
      rintro q rfl
      exact ⟨update_self .., update_idem ..⟩
    obtain ⟨hhead, htail⟩ := hupdate _ hremoved
    -- an action that is not delivered leaves its entry as it is
    have hskip : ∀ deliver consume a',
        (a.removeQueued sessionId action.id).deliverTaken sessionId taken =
          (deliver, consume, a') →
        a'.queued = update a.queued sessionId rest ∧ deliver.Sublist (action :: taken) ∧
          (∀ other ∈ deliver, a.stateOf (sessionId, other.id) = some .pending) ∧
          ∀ k, a'.stateOf k = a.stateOf k ∨
            (a.stateOf k = some .pending ∧ k.1 = sessionId ∧ k.2 ∈ actionIds (action :: taken) ∧
              a'.stateOf k = some .inflight) := by
      intro deliver consume a' hrest
      have hih := ih (a := a.removeQueued sessionId action.id) hhead hnodup'
      rw [hrest] at hih
      obtain ⟨hq, hsub, hdel, hst⟩ := hih
      refine ⟨hq.trans htail, hsub.cons action, hdel, fun k => ?_⟩
      rcases hst k with hk | ⟨hk, hs, hmem, hinflight⟩
      · exact .inl hk
      · exact .inr ⟨hk, hs, mem_cons_of_mem _ hmem, hinflight⟩
    unfold deliverTaken
    dsimp only
    split
    · next entry hentry =>
      have hstate : a.stateOf (sessionId, action.id) = some entry.state := by
        show (a.actions (sessionId, action.id)).map (·.state) = _
        rw [show a.actions (sessionId, action.id) = some entry from hentry]
        rfl
      split_ifs with hpending
      · obtain ⟨hq, hsub, hdel, hst⟩ := ih (a := (a.removeQueued sessionId action.id).setEntry
          (sessionId, action.id) (some { entry with state := .inflight })) hhead hnodup'
        refine ⟨hq.trans htail, hsub.cons_cons action, ?_, fun k => ?_⟩
        · intro other hother
          rcases mem_cons.mp hother with rfl | hother
          · rw [hstate, hpending]
          · have hne : (sessionId, other.id) ≠ (sessionId, action.id) := by
              intro he
              have hid : other.id = action.id := congrArg Prod.snd he
              have hmem : other.id ∈ actionIds taken := mem_map_of_mem (hsub.subset hother)
              rw [hid] at hmem
              exact hfirst hmem
            have hother' := hdel other hother
            rw [stateOf_setEntry, if_neg hne] at hother'
            exact hother'
        · by_cases hkey : k = (sessionId, action.id)
          · subst hkey
            have hold := hst (sessionId, action.id)
            rw [stateOf_setEntry, if_pos rfl] at hold
            refine .inr ⟨by rw [hstate, hpending], rfl, mem_cons_self, ?_⟩
            rcases hold with hk | ⟨-, -, -, hinflight⟩
            · exact hk
            · exact hinflight
          · have hold := hst k
            rw [stateOf_setEntry, if_neg hkey] at hold
            rcases hold with hk | ⟨hk, hs, hmem, hinflight⟩
            · exact .inl hk
            · exact .inr ⟨hk, hs, mem_cons_of_mem _ hmem, hinflight⟩
      · exact hskip _ _ _ rfl
    · exact hskip _ _ _ rfl

end ActionCancellationAuthority

/-! ## Waiting actions -/

/-- The ids in a session's public queue. -/
def CancellableBridge.waitingIds (b : CancellableBridge) (sessionId : SessionId) : List Uuid :=
  actionIds (b.queues sessionId).actions

/-- The action is in its session's public queue. -/
def Waits (b : CancellableBridge) (key : ActionKey) : Prop := key.2 ∈ b.waitingIds key.1

/-- The authority's copy of the queues is right, and every waiting action has an
entry that says whether it is still to be delivered. -/
structure Coherent (b : CancellableBridge) : Prop where
  capacity : 0 < b.actionCapacity
  copied : ∀ sessionId, b.authority.queued sessionId = b.waitingIds sessionId
  nodup : ∀ sessionId, (b.waitingIds sessionId).Nodup
  waiting : ∀ key, Waits b key →
    b.authority.stateOf key = some .pending ∨ b.authority.stateOf key = some .cancelled

/-- All that one call does to the waiting actions: `enqueued` now waits, `delivered`
was handed out, and of `cancelled` the caller was told that it is cancelled. -/
structure Effect (b b' : CancellableBridge) (enqueued : Option ActionKey)
    (delivered cancelled : List ActionKey) : Prop where
  coherent : Coherent b'
  waiting : ∀ key, Waits b' key → enqueued = some key ∨
    (Waits b key ∧ key ∉ delivered ∧ (b'.authority.stateOf key = b.authority.stateOf key ∨
      b'.authority.stateOf key = some .cancelled))
  known : ∀ key, b'.authority.stateOf key ≠ none →
    enqueued = some key ∨ b.authority.stateOf key ≠ none
  delivered_pending : ∀ key ∈ delivered, Waits b key ∧ b.authority.stateOf key = some .pending
  delivered_nodup : delivered.Nodup
  cancelled_known : ∀ key ∈ cancelled, b.authority.stateOf key ≠ none ∧
    (Waits b' key → b'.authority.stateOf key = some .cancelled)

theorem coherent_new (actionCapacity : Nat) : Coherent (.new actionCapacity) := by
  refine ⟨?_, fun _ => rfl, fun _ => nodup_nil, fun key h => ?_⟩
  · show 0 < max actionCapacity minNativeExecutorCapacity
    unfold minNativeExecutorCapacity
    omega
  · cases h

section
variable {b b' : CancellableBridge}

/-- A call that touches neither the public queues nor the authority. -/
theorem Effect.quiet (h : Coherent b) (hids : b'.waitingIds = b.waitingIds)
    (hauthority : b'.authority = b.authority) (hcapacity : b'.actionCapacity = b.actionCapacity) :
    Effect b b' none [] [] := by
  have hwaits : ∀ key, Waits b' key → Waits b key := by
    intro key hkey
    unfold Waits at hkey ⊢
    rwa [hids] at hkey
  refine ⟨⟨hcapacity ▸ h.capacity, ?_, ?_, ?_⟩, ?_, ?_, forall_mem_nil _, nodup_nil,
    forall_mem_nil _⟩
  · intro sessionId
    rw [hauthority, hids]
    exact h.copied sessionId
  · intro sessionId
    rw [hids]
    exact h.nodup sessionId
  · intro key hkey
    rw [hauthority]
    exact h.waiting key (hwaits key hkey)
  · intro key hkey
    rw [hauthority]
    exact .inr ⟨hwaits key hkey, not_mem_nil, Or.inl rfl⟩
  · intro key hkey
    rw [hauthority] at hkey
    exact .inr hkey

/-- A call made of two parts, the first of which hands nothing in or out. -/
theorem Effect.after {b'' : CancellableBridge} {enqueued : Option ActionKey}
    {delivered cancelled : List ActionKey} (h : Effect b b' none [] [])
    (h' : Effect b' b'' enqueued delivered cancelled) :
    Effect b b'' enqueued delivered cancelled := by
  have hback : ∀ key, Waits b' key → Waits b key ∧
      (b'.authority.stateOf key = b.authority.stateOf key ∨
        b'.authority.stateOf key = some .cancelled) := by
    intro key hkey
    rcases h.waiting key hkey with hnone | ⟨hwait, -, hstate⟩
    · cases hnone
    · exact ⟨hwait, hstate⟩
  have hknown : ∀ key, b'.authority.stateOf key ≠ none → b.authority.stateOf key ≠ none := by
    intro key hkey
    rcases h.known key hkey with hnone | hknown
    · cases hnone
    · exact hknown
  refine ⟨h'.coherent, ?_, ?_, ?_, h'.delivered_nodup, ?_⟩
  · intro key hkey
    rcases h'.waiting key hkey with henq | ⟨hwait', hnot, hstate'⟩
    · exact .inl henq
    · obtain ⟨hwait, hstate⟩ := hback key hwait'
      refine .inr ⟨hwait, hnot, ?_⟩
      rcases hstate' with hsame | hcancelled
      · rw [hsame]
        exact hstate
      · exact .inr hcancelled
  · intro key hkey
    rcases h'.known key hkey with henq | hkey'
    · exact .inl henq
    · exact .inr (hknown key hkey')
  · intro key hkey
    obtain ⟨hwait', hpending⟩ := h'.delivered_pending key hkey
    obtain ⟨hwait, hstate⟩ := hback key hwait'
    refine ⟨hwait, ?_⟩
    rcases hstate with hsame | hcancelled
    · exact hsame.symm.trans hpending
    · rw [hpending] at hcancelled
      cases hcancelled
  · intro key hkey
    obtain ⟨hkey', hcancelled⟩ := h'.cancelled_known key hkey
    exact ⟨hknown key hkey', hcancelled⟩

theorem waitingIds_setQueues (sessionId : SessionId) (queues : ActionQueues) :
    (b.setQueues sessionId queues).waitingIds =
      update b.waitingIds sessionId (actionIds queues.actions) := by
  funext other
  show actionIds (update b.queues sessionId queues other).actions = _
  by_cases h : other = sessionId
  · subst h
    rw [update_self, update_self]
  · rw [update_of_ne h, update_of_ne h]
    rfl

open Effect

/-- Queues replaced by queues with the same public actions. -/
theorem Effect.setQueues (h : Coherent b) {sessionId : SessionId} {queues : ActionQueues}
    (hactions : queues.actions = (b.queues sessionId).actions) :
    Effect b (b.setQueues sessionId queues) none [] [] := by
  refine quiet h ?_ rfl rfl
  rw [waitingIds_setQueues, hactions]
  exact update_eq_self sessionId b.waitingIds

/-- An action that does not wait yet is put behind the others, the oldest making
room for it. -/
theorem Effect.enqueue (h : Coherent b) (action : BridgeAction)
    (hfresh : ¬ Waits b (action.sessionId, action.id))
    (hids : b'.waitingIds = update b.waitingIds action.sessionId
      ((b.waitingIds action.sessionId ++ [action.id]).drop
        ((b.waitingIds action.sessionId ++ [action.id]).length - b.actionCapacity)))
    (hauthority : b'.authority = b.authority.recordEnqueued action b.actionCapacity)
    (hcapacity : b'.actionCapacity = b.actionCapacity) :
    Effect b b' (some (action.sessionId, action.id)) [] [] := by
  have hnodup : (b.waitingIds action.sessionId ++ [action.id]).Nodup := by
    rw [nodup_append_comm]
    exact nodup_cons.mpr ⟨hfresh, h.nodup _⟩
  have hcopied : b.authority.queued = b.waitingIds := funext h.copied
  obtain ⟨hqueued, hstate⟩ := recordEnqueued_spec (a := b.authority)
    action b.actionCapacity (by rw [h.copied]; exact hnodup)
  rw [← hauthority, hcopied, ← hids] at hqueued
  rw [← hauthority] at hstate
  -- what waits afterwards is the new action, or waited before
  have hback : ∀ key, Waits b' key → key = (action.sessionId, action.id) ∨ Waits b key := by
    rintro ⟨sessionId, actionId⟩ hkey
    unfold Waits at hkey ⊢
    rw [hids] at hkey
    by_cases hsession : sessionId = action.sessionId
    · subst hsession
      rw [update_self] at hkey
      rcases mem_append.mp (mem_of_mem_drop hkey) with hmem | hmem
      · exact .inr hmem
      · exact .inl (congrArg _ (mem_singleton.mp hmem))
    · rw [update_of_ne hsession] at hkey
      exact .inr hkey
  have hkept : ∀ key, Waits b' key → b'.authority.stateOf key =
      if key = (action.sessionId, action.id) then some .pending else b.authority.stateOf key := by
    intro key hkey
    rcases hstate key with hsame | ⟨hgone, -⟩
    · exact hsame
    · rw [hqueued] at hgone
      exact absurd hkey hgone
  refine ⟨⟨hcapacity ▸ h.capacity, fun sessionId => congrFun hqueued sessionId, ?_, ?_⟩, ?_, ?_,
    forall_mem_nil _, nodup_nil, forall_mem_nil _⟩
  · intro sessionId
    rw [hids]
    by_cases hsession : sessionId = action.sessionId
    · subst hsession
      rw [update_self]
      exact hnodup.sublist (drop_sublist _ _)
    · rw [update_of_ne hsession]
      exact h.nodup sessionId
  · intro key hkey
    rw [hkept key hkey]
    split_ifs with hnew
    · exact .inl rfl
    · exact h.waiting key ((hback key hkey).resolve_left hnew)
  · intro key hkey
    by_cases hnew : key = (action.sessionId, action.id)
    · exact .inl (congrArg some hnew.symm)
    · have hsame := hkept key hkey
      rw [if_neg hnew] at hsame
      exact .inr ⟨(hback key hkey).resolve_left hnew, not_mem_nil, Or.inl hsame⟩
  · intro key hkey
    by_cases hnew : key = (action.sessionId, action.id)
    · exact .inl (congrArg some hnew.symm)
    · rcases hstate key with hsame | ⟨-, hnone⟩
      · rw [if_neg hnew] at hsame
        rw [hsame] at hkey
        exact .inr hkey
      · exact absurd hnone hkey

/-- The caller is told that a known action is cancelled. -/
theorem Effect.markCancelled (h : Coherent b) {key : ActionKey} {now : Timestamp}
    (hknown : b.authority.stateOf key ≠ none) (hids : b'.waitingIds = b.waitingIds)
    (hauthority : b'.authority = b.authority.markCancelled key now)
    (hcapacity : b'.actionCapacity = b.actionCapacity) : Effect b b' none [] [key] := by
  obtain ⟨hqueued, hstate⟩ :=
    markCancelled_spec (a := b.authority) key now hknown
  rw [← hauthority] at hqueued hstate
  have hwaits : ∀ k, Waits b' k → Waits b k := by
    intro k hk
    unfold Waits at hk ⊢
    rwa [hids] at hk
  have hkept : ∀ k, Waits b' k → b'.authority.stateOf k =
      if k = key then some .cancelled else b.authority.stateOf k := by
    intro k hk
    rcases hstate k with hsame | ⟨hgone, -⟩
    · exact hsame
    · rw [h.copied] at hgone
      exact absurd (hwaits k hk) hgone
  refine ⟨⟨hcapacity ▸ h.capacity, ?_, ?_, ?_⟩, ?_, ?_, forall_mem_nil _, nodup_nil, ?_⟩
  · intro sessionId
    rw [hqueued, hids]
    exact h.copied sessionId
  · intro sessionId
    rw [hids]
    exact h.nodup sessionId
  · intro k hk
    rw [hkept k hk]
    split_ifs
    · exact .inr rfl
    · exact h.waiting k (hwaits k hk)
  · intro k hk
    refine .inr ⟨hwaits k hk, not_mem_nil, ?_⟩
    rw [hkept k hk]
    split_ifs
    · exact .inr rfl
    · exact .inl rfl
  · intro k hk
    right
    by_cases hkey : k = key
    · rw [hkey]
      exact hknown
    · rcases hstate k with hsame | ⟨-, hnone⟩
      · rw [if_neg hkey] at hsame
        rwa [hsame] at hk
      · exact absurd hnone hk
  · intro k hk
    obtain rfl := mem_singleton.mp hk
    refine ⟨hknown, fun hwait => ?_⟩
    rw [hkept k hwait, if_pos rfl]

/-- An action whose entry says neither pending nor cancelled does not wait. -/
theorem Coherent.not_waits (h : Coherent b) {key : ActionKey}
    (hstate : b.authority.stateOf key ≠ some .pending ∧
      b.authority.stateOf key ≠ some .cancelled) : ¬ Waits b key := by
  intro hwait
  rcases h.waiting key hwait with hpending | hcancelled
  · exact hstate.1 hpending
  · exact hstate.2 hcancelled

/-- The entry of an action that does not wait may change, or go. -/
theorem Effect.setEntry (h : Coherent b) {key : ActionKey} (hnot : ¬ Waits b key)
    {entry : Option ActionLifecycleEntry}
    (hentry : b.authority.stateOf key ≠ none ∨ entry = none) :
    Effect b { b with authority := b.authority.setEntry key entry } none [] [] := by
  have hkept : ∀ k, Waits b k →
      (b.authority.setEntry key entry).stateOf k = b.authority.stateOf k := by
    intro k hk
    rw [stateOf_setEntry, if_neg]
    rintro rfl
    exact hnot hk
  refine ⟨⟨h.capacity, h.copied, h.nodup, ?_⟩, ?_, ?_, forall_mem_nil _, nodup_nil,
    forall_mem_nil _⟩
  · intro k hk
    show (b.authority.setEntry key entry).stateOf k = _ ∨ _
    rw [hkept k hk]
    exact h.waiting k hk
  · exact fun k hk => Or.inr ⟨hk, not_mem_nil, Or.inl (hkept k hk)⟩
  · intro k hk
    right
    replace hk : (b.authority.setEntry key entry).stateOf k ≠ none := hk
    rw [stateOf_setEntry] at hk
    split_ifs at hk with hkey
    · rw [hkey]
      rcases hentry with hknown | hnone
      · exact hknown
      · rw [hnone] at hk
        exact absurd rfl hk
    · exact hk

/-! ## The calls of the bridge -/

open CancellableBridge

theorem effect_enqueueAction (h : Coherent b) (action : BridgeAction)
    (hfresh : ¬ Waits b (action.sessionId, action.id)) :
    Effect b (b.enqueueAction action)
      (if action.action.isInternalCaptureAction then none
        else some (action.sessionId, action.id)) [] [] := by
  unfold enqueueAction ActionQueues.enqueueAction ActionScope.fromAction
  by_cases hcapture : action.action.isInternalCaptureAction = true
  · simp only [if_pos hcapture]
    exact setQueues h rfl
  · simp only [if_neg hcapture]
    refine enqueue h action hfresh ?_ rfl rfl
    refine (waitingIds_setQueues action.sessionId _).trans ?_
    refine congrArg _ ?_
    simp only [actionIds, pushBounded, map_drop, map_append, map_singleton,
      length_append, length_map, length_singleton, waitingIds]

/-- What the base queue refuses does not wait. -/
theorem not_waits_of_not_duplicate {action : BridgeAction}
    (hdup : (b.queues action.sessionId).duplicate action.id = false) :
    ¬ Waits b (action.sessionId, action.id) := by
  intro hwait
  obtain ⟨other, hother, hid⟩ := mem_map.mp hwait
  have hholds : holdsId (b.queues action.sessionId).actions action.id = true :=
    any_eq_true.mpr ⟨other, hother, decide_eq_true hid⟩
  unfold ActionQueues.duplicate at hdup
  rw [hholds] at hdup
  simp at hdup

/-- The queue admits an action minted before. -/
def CancellableBridge.admitsPrebound (b : CancellableBridge) (action : BridgeAction) : Prop :=
  action.action.isInternalCaptureAction = false ∧
    (b.queues action.sessionId).duplicate action.id = false ∧
    (b.queues action.sessionId).actions.length < b.actionCapacity

theorem effect_enqueuePrebound (h : Coherent b) (action : BridgeAction) :
    (b.admitsPrebound action ∧ (b.enqueuePreboundPublicAction action).1 = true ∧
        Effect b (b.enqueuePreboundPublicAction action).2
          (some (action.sessionId, action.id)) [] []) ∨
      (¬ b.admitsPrebound action ∧ b.enqueuePreboundPublicAction action = (false, b)) := by
  unfold enqueuePreboundPublicAction ActionQueues.enqueuePreboundPublicAction
  by_cases hcapture : action.action.isInternalCaptureAction = true
  · right
    rw [if_pos hcapture]
    refine ⟨fun hadmits => ?_, rfl⟩
    rw [hadmits.1] at hcapture
    cases hcapture
  · rw [if_neg hcapture, if_neg hcapture]
    by_cases hrefused : (b.queues action.sessionId).duplicate action.id = true ∨
        b.actionCapacity ≤ (b.queues action.sessionId).actions.length
    · right
      rw [if_pos hrefused]
      refine ⟨fun hadmits => ?_, rfl⟩
      rcases hrefused with hdup | hfull
      · rw [hadmits.2.1] at hdup
        cases hdup
      · exact absurd hadmits.2.2 (Nat.not_lt_of_le hfull)
    · left
      rw [if_neg hrefused]
      obtain ⟨hdup, hroom⟩ := not_or.mp hrefused
      rw [Bool.not_eq_true] at hdup hcapture
      refine ⟨⟨hcapture, hdup, Nat.lt_of_not_le hroom⟩, rfl, ?_⟩
      refine enqueue h action (not_waits_of_not_duplicate hdup) ?_ rfl rfl
      refine (waitingIds_setQueues action.sessionId _).trans (congrArg _ ?_)
      -- there is room, so nothing is dropped
      have hlength : (b.waitingIds action.sessionId ++ [action.id]).length ≤ b.actionCapacity := by
        simp only [waitingIds, actionIds, length_append, length_map,
          length_singleton]
        omega
      rw [Nat.sub_eq_zero_of_le hlength, drop_zero]
      simp only [actionIds, map_append, map_singleton, waitingIds]

theorem actions_discardPublicAction (queues : ActionQueues) (actionId : Uuid) :
    (queues.discardPublicAction actionId).2.actions = queues.actions := by
  unfold ActionQueues.discardPublicAction
  split <;> rfl

theorem actions_discardAll (ids : List Uuid) (queues : ActionQueues) :
    (ids.foldl (fun queues actionId => (queues.discardPublicAction actionId).2) queues).actions =
      queues.actions := by
  induction ids generalizing queues with
  | nil => rfl
  | cons actionId ids ih =>
    rw [foldl_cons, ih, actions_discardPublicAction]

/-- The keys of the actions a take of a session returns. -/
def keysOf (sessionId : SessionId) (actions : List BridgeAction) : List ActionKey :=
  actions.map fun action => (sessionId, action.id)

theorem effect_takePublicActions (h : Coherent b) (sessionId : SessionId) (limit : Nat)
    (now : Timestamp) :
    Effect b (b.takePublicActions sessionId limit now).2 none
      (keysOf sessionId (b.takePublicActions sessionId limit now).1) [] := by
  let taken := (b.queues sessionId).actions.take limit
  let rest := actionIds ((b.queues sessionId).actions.drop limit)
  have hsplit : b.waitingIds sessionId = actionIds taken ++ rest := by
    show List.map _ _ = List.map _ _ ++ List.map _ _
    rw [← map_append, take_append_drop]
  have hcopied : b.authority.queued = b.waitingIds := funext h.copied
  have hnodup : (actionIds taken ++ rest).Nodup := hsplit ▸ h.nodup sessionId
  obtain ⟨hnodupTaken, hnodupRest, hdisjoint⟩ := nodup_append'.mp hnodup
  obtain ⟨hqueued, hsub, hpending, hstate⟩ := deliverTaken_spec
    (a := b.authority) sessionId taken rest (by rw [h.copied, hsplit]) hnodupTaken
  let looped := (b.authority.deliverTaken sessionId taken).2.2
  have hqueued' : looped.queued = update b.waitingIds sessionId rest :=
    hqueued.trans (by rw [hcopied])
  have hstep : b.takePublicActions sessionId limit now =
      ((b.authority.deliverTaken sessionId taken).1,
        (b.takePublicActions sessionId limit now).2) := rfl
  have hids : (b.takePublicActions sessionId limit now).2.waitingIds =
      update b.waitingIds sessionId rest := by
    refine (waitingIds_setQueues sessionId _).trans (congrArg _ ?_)
    exact congrArg actionIds (actions_discardAll _ _)
  have hauthority : (b.takePublicActions sessionId limit now).2.authority =
      looped.pruneCancelledTombstones := rfl
  -- nothing new waits, and what still waits was not among the actions taken
  have hback : ∀ key, Waits (b.takePublicActions sessionId limit now).2 key →
      Waits b key ∧ ¬ (key.1 = sessionId ∧ key.2 ∈ actionIds taken) := by
    rintro ⟨session, actionId⟩ hkey
    unfold Waits at hkey ⊢
    rw [hids] at hkey
    by_cases hsession : session = sessionId
    · subst hsession
      rw [update_self] at hkey
      refine ⟨?_, fun htaken => hdisjoint htaken.2 hkey⟩
      show actionId ∈ b.waitingIds session
      rw [hsplit]
      exact mem_append_right _ hkey
    · rw [update_of_ne hsession] at hkey
      exact ⟨hkey, fun htaken => hsession htaken.1⟩
  have hkept : ∀ key, Waits (b.takePublicActions sessionId limit now).2 key →
      (b.takePublicActions sessionId limit now).2.authority.stateOf key =
        b.authority.stateOf key := by
    intro key hkey
    rw [hauthority]
    rcases forgets_prune (a := looped) key with hsame | ⟨hgone, -⟩
    · rw [hsame]
      rcases hstate key with hstate | ⟨-, hsession, htaken, -⟩
      · exact hstate
      · exact absurd ⟨hsession, htaken⟩ (hback key hkey).2
    · rw [hqueued', ← hids] at hgone
      exact absurd hkey hgone
  have hdelivered : ∀ key ∈ keysOf sessionId (b.takePublicActions sessionId limit now).1,
      key.1 = sessionId ∧ key.2 ∈ actionIds taken ∧ b.authority.stateOf key = some .pending := by
    intro key hkey
    rw [hstep] at hkey
    obtain ⟨action, haction, rfl⟩ := mem_map.mp hkey
    exact ⟨rfl, mem_map_of_mem (hsub.subset haction), hpending action haction⟩
  refine ⟨⟨h.capacity, ?_, ?_, ?_⟩, ?_, ?_, ?_, ?_, forall_mem_nil _⟩
  · intro session
    rw [hauthority, queued_prune, hqueued', hids]
  · intro session
    rw [hids]
    by_cases hsession : session = sessionId
    · subst hsession
      rw [update_self]
      exact hnodupRest
    · rw [update_of_ne hsession]
      exact h.nodup session
  · intro key hkey
    rw [hkept key hkey]
    exact h.waiting key (hback key hkey).1
  · intro key hkey
    obtain ⟨hwait, htaken⟩ := hback key hkey
    refine .inr ⟨hwait, fun hmem => ?_, Or.inl (hkept key hkey)⟩
    obtain ⟨hsession, hid, -⟩ := hdelivered key hmem
    exact htaken ⟨hsession, hid⟩
  · intro key hkey
    right
    rw [hauthority] at hkey
    rcases forgets_prune (a := looped) key with hsame | ⟨-, hnone⟩
    · rw [hsame] at hkey
      rcases hstate key with hstate | ⟨hstate, -, -, -⟩
      · rwa [hstate] at hkey
      · rw [hstate]
        exact fun hnone => by cases hnone
    · exact absurd hnone hkey
  · intro key hkey
    obtain ⟨hsession, hid, hpending⟩ := hdelivered key hkey
    refine ⟨?_, hpending⟩
    show key.2 ∈ b.waitingIds key.1
    rw [hsession, hsplit]
    exact mem_append_left _ hid
  · rw [hstep]
    have hids : (actionIds (b.authority.deliverTaken sessionId taken).1).Nodup :=
      hnodupTaken.sublist (hsub.map _)
    have hkeys : keysOf sessionId (b.authority.deliverTaken sessionId taken).1 =
        (actionIds (b.authority.deliverTaken sessionId taken).1).map (Prod.mk sessionId) := by
      unfold keysOf actionIds
      rw [map_map]
      rfl
    rw [hkeys]
    exact hids.map fun x y hxy => congrArg Prod.snd hxy

theorem actions_claimAction (queues : ActionQueues) (capacity : Nat) (actionId : Uuid) :
    (queues.claimAction capacity actionId).2.actions = queues.actions := by
  unfold ActionQueues.claimAction
  split
  · rfl
  · split <;> rfl

theorem effect_claimAction (h : Coherent b) (sessionId : SessionId) (actionId : Uuid) :
    Effect b (b.claimAction sessionId actionId).2 none [] [] := by
  have hqueues := setQueues h
    (actions_claimAction (b.queues sessionId) b.actionCapacity actionId)
  unfold claimAction
  dsimp only
  split
  · exact hqueues
  · next state hstate =>
    split_ifs with hinflight
    · exact quiet h rfl rfl rfl
    · split
      · exact quiet h rfl rfl rfl
      · have hinflight' : state = .inflight := not_not.mp hinflight
        have hneither : b.authority.stateOf (sessionId, actionId) ≠ some .pending ∧
            b.authority.stateOf (sessionId, actionId) ≠ some .cancelled := by
          rw [hstate, hinflight']
          decide
        have hnot := hqueues.coherent.not_waits hneither
        have hremoved : b.authority.removeAction (sessionId, actionId) =
            b.authority.setEntry (sessionId, actionId) none := by
          refine removeQueued_of_not_mem ?_
          rw [queued_setEntry]
          have hcopied := hqueues.coherent.copied sessionId
          intro hmem
          rw [show b.authority.queued sessionId = _ from hcopied] at hmem
          exact hnot hmem
        rw [hremoved]
        exact hqueues.after (setEntry hqueues.coherent hnot (Or.inr rfl))

theorem actions_completeAction (queues : ActionQueues) (capacity : Nat) (origin : CompletionOrigin)
    (resultId : Uuid) (now : Timestamp) :
    (queues.completeAction capacity origin resultId now).actions = queues.actions := by
  have hremove : ∀ scope actionId,
      (queues.removeClaimedForScope scope actionId).actions = queues.actions := by
    intro scope actionId
    cases scope <;> rfl
  have htake : (queues.takeClaimedById resultId).2.actions = queues.actions := by
    unfold ActionQueues.takeClaimedById
    split
    · rfl
    · split <;> rfl
  cases origin with
  | session sessionId =>
    unfold ActionQueues.completeAction
    dsimp only
    split <;> split <;> first | exact htake | (split <;> exact htake)
  | action action =>
    unfold ActionQueues.completeAction
    dsimp only
    split <;> split <;> first | exact hremove _ _ | (split <;> exact hremove _ _)

theorem effect_completeAction (h : Coherent b) (origin : CompletionOrigin) (resultId : Uuid)
    (now : Timestamp) : Effect b (b.completeAction origin resultId now) none [] [] :=
  setQueues h (actions_completeAction _ _ _ _ _)

/-- What a caller that asks for a cancellation is told of. -/
def cancelledKeys (sessionId : SessionId) (outcome : Option ActionCancellationOutcome) :
    List ActionKey :=
  match outcome with
  | some outcome => if outcome.state = .cancelled then [(sessionId, outcome.actionId)] else []
  | none => []

theorem effect_requestActionCancellation (h : Coherent b) (sessionId : SessionId)
    (actionId : Uuid) (now : Timestamp) :
    Effect b (b.requestActionCancellation sessionId actionId now).2 none []
      (cancelledKeys sessionId (b.requestActionCancellation sessionId actionId now).1) := by
  have hquiet : Effect b b none [] [] := quiet h rfl rfl rfl
  unfold requestActionCancellation
  dsimp only
  split
  · exact hquiet
  · next hstate =>
    refine markCancelled h ?_ rfl (Eq.refl (b.authority.markCancelled _ now)) rfl
    rw [hstate]
    exact fun hnone => by cases hnone
  · next hstate =>
    -- an action in flight does not wait, so its entry may change
    have hnot : ¬ Waits b (sessionId, actionId) := h.not_waits (by rw [hstate]; decide)
    exact setEntry h hnot (Or.inl (by rw [hstate]; exact fun hnone => by cases hnone))
  · exact hquiet
  · next hstate =>
    refine ⟨h, hquiet.waiting, hquiet.known, forall_mem_nil _, nodup_nil, ?_⟩
    intro key hkey
    obtain rfl := mem_singleton.mp hkey
    refine ⟨?_, fun _ => hstate⟩
    rw [hstate]
    exact fun hnone => by cases hnone

/-- What a caller that acknowledges a cancellation is told of. -/
def acknowledgedKeys (key : ActionKey) : Bool → List ActionKey
  | true => [key]
  | false => []

theorem effect_acknowledgeActionCancellation (h : Coherent b) (sessionId : SessionId)
    (actionId : Uuid) (now : Timestamp) :
    Effect b (b.acknowledgeActionCancellation sessionId actionId now).2 none []
      (acknowledgedKeys (sessionId, actionId)
        (b.acknowledgeActionCancellation sessionId actionId now).1) := by
  have hquiet : Effect b b none [] [] := quiet h rfl rfl rfl
  unfold acknowledgeActionCancellation
  dsimp only
  cases hentry : b.authority.actions (sessionId, actionId) with
  | none => exact hquiet
  | some entry =>
    obtain ⟨state, requestedAt⟩ := entry
    have hstate : b.authority.stateOf (sessionId, actionId) = some state := by
      unfold ActionCancellationAuthority.stateOf
      rw [hentry]
      rfl
    have hknown : b.authority.stateOf (sessionId, actionId) ≠ none := by
      rw [hstate]
      exact fun hnone => by cases hnone
    cases state with
    | cancelled =>
      refine ⟨h, hquiet.waiting, hquiet.known, forall_mem_nil _, nodup_nil, ?_⟩
      intro key hkey
      obtain rfl := mem_singleton.mp hkey
      exact ⟨hknown, fun _ => hstate⟩
    | pending | inflight => exact hquiet
    | cancellationRequested =>
      refine markCancelled h hknown ?_ rfl rfl
      refine (waitingIds_setQueues sessionId _).trans ?_
      rw [actions_discardPublicAction]
      exact update_eq_self sessionId b.waitingIds

theorem effect_discardPublicActions (h : Coherent b) (sessionId : SessionId) :
    Effect b (b.discardPublicActionsForSession sessionId).2 none [] [] := by
  have hids : (b.discardPublicActionsForSession sessionId).2.waitingIds =
      update b.waitingIds sessionId [] := waitingIds_setQueues sessionId _
  have hauthority : (b.discardPublicActionsForSession sessionId).2.authority =
      b.authority.releaseSession sessionId := rfl
  have hstate : ∀ key, (b.authority.releaseSession sessionId).stateOf key =
      if key.1 = sessionId then none else b.authority.stateOf key := by
    intro key
    show ((if key.1 = sessionId then none else b.authority.actions key).map (·.state)) = _
    split_ifs <;> rfl
  have hback : ∀ key, Waits (b.discardPublicActionsForSession sessionId).2 key →
      key.1 ≠ sessionId ∧ Waits b key := by
    rintro ⟨session, actionId⟩ hkey
    unfold Waits at hkey ⊢
    rw [hids] at hkey
    by_cases hsession : session = sessionId
    · subst hsession
      rw [update_self] at hkey
      cases hkey
    · rw [update_of_ne hsession] at hkey
      exact ⟨hsession, hkey⟩
  refine ⟨⟨h.capacity, ?_, ?_, ?_⟩, ?_, ?_, forall_mem_nil _, nodup_nil,
    forall_mem_nil _⟩
  · intro session
    rw [hids, hauthority]
    show update b.authority.queued sessionId [] session = _
    rw [funext h.copied]
  · intro session
    rw [hids]
    by_cases hsession : session = sessionId
    · subst hsession
      rw [update_self]
      exact nodup_nil
    · rw [update_of_ne hsession]
      exact h.nodup session
  · intro key hkey
    obtain ⟨hsession, hwait⟩ := hback key hkey
    rw [hauthority, hstate, if_neg hsession]
    exact h.waiting key hwait
  · intro key hkey
    obtain ⟨hsession, hwait⟩ := hback key hkey
    rw [hauthority, hstate, if_neg hsession]
    exact .inr ⟨hwait, not_mem_nil, Or.inl rfl⟩
  · intro key hkey
    rw [hauthority, hstate] at hkey
    split_ifs at hkey
    · exact absurd rfl hkey
    · exact .inr hkey

end

end Localview
