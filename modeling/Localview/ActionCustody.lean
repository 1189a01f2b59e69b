import Localview.ActionDelivery
import Localview.ActionHandover

/-! # Custody of actions over a run

What holds of the actions handed out after any run of bridge calls that mints
distinct ids: whatever is in flight is recorded by the authority, once, and an
internal capture is never taken for a public action (`Custody`).  That two
layers, an envelope store and a capture queue share one id space is what makes
the freshness of minted ids count.
-/
namespace Localview
open StateRun List Function LiveBridge

/-! ## One session -/

/-- What is in flight is recorded, once, and fits the capacity. -/
structure Handover.Sound (capacity : Nat) (h : Handover) : Prop where
  room : h.inflight.length ≤ capacity
  nodup : h.inflight.Nodup
  recorded : ∀ id ∈ h.inflight, h.record id ≠ none

theorem Handover.sound_idle (capacity : Nat) : Handover.idle.Sound capacity :=
  ⟨Nat.zero_le _, nodup_nil, forall_mem_nil _⟩

section
variable {capacity : Nat} {h h' : Handover} {delivered : List Uuid} {fits : Prop}

/-- An action less in flight, and no longer recorded. -/
theorem Handover.Sound.erase (hsound : h.Sound capacity) (id : Uuid) :
    (h.inflight.erase id).length ≤ capacity ∧ (h.inflight.erase id).Nodup ∧
      ∀ other ∈ h.inflight.erase id, update h.record id none other ≠ none := by
  refine ⟨Nat.le_trans length_erase_le hsound.room, hsound.nodup.erase id,
    fun other hother => ?_⟩
  obtain ⟨hne, hin⟩ := hsound.nodup.mem_erase_iff.mp hother
  rw [update_of_ne hne]
  exact hsound.recorded other hin

theorem Handover.nodup_pushed (hsound : h.Sound capacity) {taken : List Uuid} (hnodup : taken.Nodup)
    (hnew : ∀ id ∈ taken, h.record id = none) : (h.inflight ++ taken).Nodup := by
  rw [nodup_append']
  exact ⟨hsound.nodup, hnodup, fun id hin htaken => hsound.recorded id hin (hnew id htaken)⟩

/-- **Step.**  Soundness survives every call. -/
theorem HandoverStep.sound (hstep : HandoverStep capacity h delivered fits h')
    (hsound : h.Sound capacity) : h'.Sound capacity := by
  cases hstep with
  | quiet => exact hsound
  | enqueue id hid =>
    refine ⟨hsound.room, hsound.nodup, fun other hother => ?_⟩
    have hne : other ≠ id := fun he => hid (he ▸ hother)
    show update h.record id none other ≠ none
    rw [update_of_ne hne]
    exact hsound.recorded other hother
  | retire => exact Handover.sound_idle capacity
  | take taken delivered consumed now hnodup hsplit hnew =>
    have hpushed : (h.pushed capacity taken).Nodup :=
      (Handover.nodup_pushed hsound hnodup hnew).sublist (drop_sublist _ _)
    refine ⟨?_, hpushed.sublist (diff_sublist ..), fun id hid => ?_⟩
    · refine Nat.le_trans (diff_sublist ..).length_le ?_
      unfold Handover.pushed
      rw [length_drop]
      omega
    · obtain ⟨hin, hkept⟩ := hpushed.mem_sdiff_iff.mp hid
      show (if id ∈ delivered then some ActionLifecycle.inflight else h.record id) ≠ none
      split_ifs with hdelivered
      · exact Option.some_ne_none _
      · -- what was taken and not delivered was consumed
        rcases mem_append.mp (mem_of_mem_drop hin) with hbefore | htaken
        · exact hsound.recorded id hbefore
        · exact absurd (mem_append.mp (hsplit.subset htaken)) (not_or.mpr ⟨hdelivered, hkept⟩)
  | claim id hrecord hid =>
    obtain ⟨hroom, hnodup, hrecorded⟩ := hsound.erase id
    exact ⟨hroom, hnodup, hrecorded⟩
  | complete id => exact ⟨hsound.room, hsound.nodup, hsound.recorded⟩
  | cancel id hrecord =>
    refine ⟨hsound.room, hsound.nodup, fun other hother => ?_⟩
    show update h.record id (some .cancellationRequested) other ≠ none
    by_cases he : other = id
    · rw [he, update_self]
      exact Option.some_ne_none _
    · rw [update_of_ne he]
      exact hsound.recorded other hother
  | acknowledge id hrecord =>
    obtain ⟨hroom, hnodup, hrecorded⟩ := hsound.erase id
    exact ⟨hroom, hnodup, hrecorded⟩

/-- An entry is in flight only because it was, or because the action was just
returned. -/
theorem HandoverStep.inflight_recorded (hstep : HandoverStep capacity h delivered fits h') {id : Uuid}
    (hid : h'.record id = some .inflight) : h.record id = some .inflight ∨ id ∈ delivered := by
  have hupdate : ∀ {other : Uuid} {state : Option ActionLifecycle}, state ≠ some .inflight →
      update h.record other state id = some .inflight → h.record id = some .inflight := by
    intro other state hstate hrecord
    by_cases he : id = other
    · rw [he, update_self] at hrecord
      exact absurd hrecord hstate
    · rwa [update_of_ne he] at hrecord
  cases hstep with
  | quiet => exact .inl hid
  | enqueue other => exact .inl (hupdate (by decide) hid)
  | retire => cases hid
  | take taken delivered consumed now hnodup hsplit hnew =>
    replace hid : (if id ∈ delivered then some ActionLifecycle.inflight else h.record id) =
      some .inflight := hid
    split_ifs at hid with hdelivered
    · exact .inr hdelivered
    · exact .inl hid
  | claim other => exact .inl (hupdate (by decide) hid)
  | complete other => exact .inl hid
  | cancel other => exact .inl (hupdate (by decide) hid)
  | acknowledge other => exact .inl (hupdate (by decide) hid)

end

/-! ## Captures -/

/-- The ids of a session's internal captures that wait or are in flight. -/
def ActionQueues.captureIds (q : ActionQueues) : List Uuid :=
  actionIds (q.captureActions ++ q.captureInflight)

def LiveBridge.captureIds (b : LiveBridge) (sessionId : SessionId) : List Uuid :=
  (b.legacy.queues sessionId).captureIds

/-- No capture joins those that wait or are in flight. -/
structure ActionQueues.KeepsCaptures (q q' : ActionQueues) : Prop where
  waiting : q'.captureActions = q.captureActions
  inflight : ∀ action ∈ q'.captureInflight, action ∈ q.captureInflight

namespace ActionQueues
variable {capacity : Nat} {q q' q'' : ActionQueues}

theorem KeepsCaptures.refl (q : ActionQueues) : q.KeepsCaptures q := ⟨rfl, fun _ h => h⟩

theorem KeepsCaptures.trans (h : q.KeepsCaptures q') (h' : q'.KeepsCaptures q'') :
    q.KeepsCaptures q'' :=
  ⟨h'.waiting.trans h.waiting, fun action ha => h.inflight action (h'.inflight action ha)⟩

theorem KeepsCaptures.ids (h : q.KeepsCaptures q') : ∀ id ∈ q'.captureIds, id ∈ q.captureIds := by
  intro id hid
  obtain ⟨action, haction, rfl⟩ := mem_map.mp hid
  refine mem_map_of_mem (mem_append.mpr ?_)
  rcases mem_append.mp haction with hwaits | hinflight
  · rw [h.waiting] at hwaits
    exact .inl hwaits
  · exact .inr (h.inflight action hinflight)

theorem keepsCaptures_enqueueAction {action : BridgeAction}
    (hpublic : action.action.isInternalCaptureAction = false) :
    q.KeepsCaptures (q.enqueueAction capacity action) := by
  unfold enqueueAction ActionScope.fromAction
  rw [hpublic]
  exact ⟨rfl, fun _ h => h⟩

/-- The only capture that joins is the one queued. -/
theorem captureIds_enqueueAction (action : BridgeAction) :
    ∀ id ∈ (q.enqueueAction capacity action).captureIds, id ∈ q.captureIds ∨ id = action.id := by
  intro id hid
  cases hcapture : action.action.isInternalCaptureAction with
  | false => exact .inl ((keepsCaptures_enqueueAction hcapture).ids id hid)
  | true =>
    unfold enqueueAction ActionScope.fromAction at hid
    rw [hcapture] at hid
    obtain ⟨other, hother, rfl⟩ := mem_map.mp hid
    rcases mem_append.mp hother with hwaits | hinflight
    · rcases mem_append.mp (mem_of_mem_drop hwaits) with hold | hnew
      · exact .inl (mem_map_of_mem (mem_append_left _ hold))
      · exact .inr (congrArg _ (mem_singleton.mp hnew))
    · exact .inl (mem_map_of_mem (mem_append_right _ hinflight))

theorem captureIds_takeInternalCaptureActions (limit : Nat) :
    ∀ id ∈ (q.takeInternalCaptureActions capacity limit).2.captureIds, id ∈ q.captureIds := by
  intro id hid
  have hpushed : ∀ (taken inflight : List BridgeAction) (action : BridgeAction),
      action ∈ taken.foldl (fun inflight action => pushBounded capacity inflight action) inflight →
        action ∈ inflight ∨ action ∈ taken := by
    intro taken
    induction taken with
    | nil => exact fun _ _ hmem => Or.inl hmem
    | cons first taken ih =>
      intro inflight action hmem
      rcases ih _ action hmem with hmem | hmem
      · rcases mem_append.mp (mem_of_mem_drop hmem) with hmem | hmem
        · exact .inl hmem
        · exact .inr (mem_singleton.mp hmem ▸ mem_cons_self)
      · exact .inr (mem_cons_of_mem _ hmem)
  obtain ⟨action, haction, rfl⟩ := mem_map.mp hid
  refine mem_map_of_mem (mem_append.mpr ?_)
  rcases mem_append.mp haction with hwaits | hinflight
  · exact .inl (mem_of_mem_drop hwaits)
  · rcases hpushed _ _ action hinflight with hbefore | htaken
    · exact .inr hbefore
    · exact .inl (mem_of_mem_take htaken)

theorem keepsCaptures_enqueuePrebound (action : BridgeAction) :
    q.KeepsCaptures (q.enqueuePreboundPublicAction capacity action).2 := by
  unfold enqueuePreboundPublicAction
  split_ifs <;> exact ⟨rfl, fun _ h => h⟩

theorem keepsCaptures_discardAll (ids : List Uuid) (q : ActionQueues) :
    q.KeepsCaptures
      (ids.foldl (fun queues actionId => (queues.discardPublicAction actionId).2) q) := by
  induction ids generalizing q with
  | nil => exact .refl q
  | cons actionId ids ih =>
    have hone : q.KeepsCaptures (q.discardPublicAction actionId).2 := by
      unfold discardPublicAction
      split_ifs <;> exact ⟨rfl, fun _ h => h⟩
    exact hone.trans (ih _)

theorem keepsCaptures_claimAction (capacity : Nat) (actionId : Uuid) :
    q.KeepsCaptures (q.claimAction capacity actionId).2 := by
  unfold claimAction claimFromScope
  cases q.captureInflight.find? fun action => action.id = actionId with
  | some action => exact ⟨rfl, fun _ h => mem_of_mem_eraseP h⟩
  | none =>
    cases q.inflight.find? fun action => action.id = actionId with
    | some action => exact ⟨rfl, fun _ h => h⟩
    | none => exact .refl q

theorem keepsCaptures_completeAction (origin : CompletionOrigin) (resultId : Uuid)
    (now : Timestamp) : q.KeepsCaptures (q.completeAction capacity origin resultId now) := by
  have hremove : ∀ scope id, q.KeepsCaptures (q.removeClaimedForScope scope id) := by
    intro scope id
    cases scope <;> exact ⟨rfl, fun _ h => h⟩
  have htake : q.KeepsCaptures (q.takeClaimedById resultId).2 := by
    unfold takeClaimedById
    split
    · exact ⟨rfl, fun _ h => h⟩
    · split <;> exact ⟨rfl, fun _ h => h⟩
  -- what follows the removal touches boundaries, starts and results only
  have hrest : ∀ {q' q'' : ActionQueues}, q.KeepsCaptures q' →
      q''.captureActions = q'.captureActions → q''.captureInflight = q'.captureInflight →
      q.KeepsCaptures q'' := fun h hwaiting hinflight =>
    ⟨hwaiting.trans h.waiting, fun action ha => h.inflight action (hinflight ▸ ha)⟩
  cases origin with
  | session sessionId =>
    unfold completeAction
    dsimp only
    split <;> split <;> first | exact hrest htake rfl rfl | (split <;> exact hrest htake rfl rfl)
  | action action =>
    unfold completeAction
    dsimp only
    split <;> split <;> first
      | exact hrest (hremove _ _) rfl rfl
      | (split <;> exact hrest (hremove _ _) rfl rfl)

end ActionQueues

/-! ## One call -/

def Known (b : LiveBridge) (key : ActionKey) : Prop :=
  b.legacy.authority.stateOf key ≠ none ∨
    ∃ envelope, b.actionEnvelopes key.2 = some envelope ∧ envelope.sessionId = key.1

/-- The ids a call returns to a session. -/
def deliveredIds (sessionId : SessionId) : BridgeLabel → List Uuid
  | (.takePublicActions session _ _, .taken actions)
  | (.takeManagedSurfaceActions session _ _ _, .taken actions) =>
      if sessionId = session then actionIds actions else []
  | _ => []

theorem mem_keysOf {sessionId : SessionId} {actions : List BridgeAction} {key : ActionKey} :
    key ∈ keysOf sessionId actions ↔ key.1 = sessionId ∧ key.2 ∈ actionIds actions := by
  unfold keysOf actionIds
  simp only [mem_map]
  constructor
  · rintro ⟨action, haction, rfl⟩
    exact ⟨rfl, action, haction, rfl⟩
  · rintro ⟨hsession, action, haction, hid⟩
    exact ⟨action, haction, Prod.ext hsession.symm hid⟩

theorem mem_deliveredIds {l : BridgeLabel} {key : ActionKey} :
    key.2 ∈ deliveredIds key.1 l ↔ key ∈ deliveredKeys l := by
  have htake : ∀ {session : SessionId} {actions : List BridgeAction},
      key.2 ∈ (if key.1 = session then actionIds actions else []) ↔ key ∈ keysOf session actions := by
    intro session actions
    rw [mem_keysOf]
    split_ifs with hsession
    · exact (and_iff_right hsession).symm
    · exact iff_of_false not_mem_nil fun h => hsession h.1
  obtain ⟨call, answer⟩ := l
  cases call <;> first
    | exact iff_of_false not_mem_nil not_mem_nil
    | (cases answer <;> first
        | exact iff_of_false not_mem_nil not_mem_nil
        | exact htake)

section
variable {b b' : LiveBridge} {l : BridgeLabel}

/-- What one call minted is all that it adds to what is known. -/
theorem known_step (h : Coherent b.legacy) (hstep : BridgeStep b l b')
    (hfresh : ∀ key ∈ mintedKeys l, ¬ Waits b.legacy key) {key : ActionKey} (hknown : Known b' key) :
    Known b key ∨ key ∈ mintedKeys l := by
  obtain ⟨enqueued, heffect, henqueues, henvelopes⟩ := bridgeEffect_step h hstep hfresh
  rcases hknown with hstate | ⟨envelope, henvelope, hsession⟩
  · rcases heffect.known key hstate with hnew | hold
    · cases (henqueues key hnew).2 with
      | minted hminted => exact .inr hminted
      | handedOff queued hcall hkey hadmits hconsumed =>
        -- the hand-off found the envelope
        left
        right
        subst hkey
        exact ⟨queued.envelope, hadmits.2.2.1, hadmits.2.1.symm⟩
    · exact .inl (Or.inl hold)
  · rcases henvelopes key.2 envelope henvelope with hbefore | ⟨hminted, -⟩
    · exact .inl (Or.inr ⟨envelope, hbefore, hsession⟩)
    · rw [hsession] at hminted
      exact .inr hminted

/-- The metadata check lets no capture through. -/
theorem public_of_checked {action : BridgeActionKind} {metadata : ActionEnvelopeMetadata}
    (h : checkEnvelopeMetadata action metadata = .ok ()) :
    action.isInternalCaptureAction = false := by
  unfold checkEnvelopeMetadata at h
  rw [← Bool.not_eq_true]
  exact (EarlyReturn.rejectIf_bind_eq_ok.mp h).1

/-- A canonical admission is refused, or the action is a public one. -/
theorem enqueueCanonicalAction_public (action : BridgeAction) (envelopeId : Uuid)
    (metadata : ActionEnvelopeMetadata) :
    (b.enqueueCanonicalAction action envelopeId metadata).2 = b ∨
      (action.action.isInternalCaptureAction = false ∧
        (b.enqueueCanonicalAction action envelopeId metadata).2 =
          (b.enqueueAction action).insertEnvelope
            (envelopeFor action envelopeId metadata)) := by
  unfold enqueueCanonicalAction
  split
  · exact .inl rfl
  · exact .inl rfl
  · next hmetadata _ => exact .inr ⟨public_of_checked hmetadata, rfl⟩

/-- The hand-off leaves the managed surface and comes down to the queueing, or to nothing. -/
theorem handOff_legacy (b : LiveBridge) (queued : CanonicalQueuedAction) :
    (b.enqueueBoundCanonicalActionForDispatch queued).2.managedSurfaceActionAuthority =
        b.managedSurfaceActionAuthority ∧
      ((b.enqueueBoundCanonicalActionForDispatch queued).2.legacy = b.legacy ∨
        (b.enqueueBoundCanonicalActionForDispatch queued).2.legacy =
          (b.legacy.enqueuePreboundPublicAction queued.action).2) := by
  unfold enqueueBoundCanonicalActionForDispatch
  split_ifs
  · exact ⟨rfl, .inl rfl⟩
  · exact ⟨rfl, .inl rfl⟩
  · split
    · exact ⟨rfl, .inl rfl⟩
    · split_ifs
      · exact ⟨rfl, .inl rfl⟩
      · dsimp only
        split
        · exact ⟨rfl, .inl rfl⟩
        · split <;> next hprebound => exact ⟨rfl, .inr (congrArg Prod.snd hprebound).symm⟩

/-- The captures are among those before, and as many actions find room. -/
structure CancellableBridge.KeepsCaptures (c c' : CancellableBridge) : Prop where
  queues : ∀ sessionId, (c.queues sessionId).KeepsCaptures (c'.queues sessionId)
  capacity : c'.actionCapacity = c.actionCapacity

theorem CancellableBridge.KeepsCaptures.refl (c : CancellableBridge) : c.KeepsCaptures c :=
  ⟨fun _ => .refl _, rfl⟩

theorem CancellableBridge.KeepsCaptures.trans {c c' c'' : CancellableBridge}
    (h : c.KeepsCaptures c') (h' : c'.KeepsCaptures c'') : c.KeepsCaptures c'' :=
  ⟨fun sessionId => (h.queues sessionId).trans (h'.queues sessionId), h'.capacity.trans h.capacity⟩

section
variable (legacy : CancellableBridge) (sessionId : SessionId)

theorem keepsCaptures_setQueues
    {queues : ActionQueues} (h : (legacy.queues sessionId).KeepsCaptures queues) :
    legacy.KeepsCaptures (legacy.setQueues sessionId queues) := by
  refine ⟨fun other => ?_, rfl⟩
  by_cases hsession : other = sessionId
  · subst hsession
    rwa [queues_setQueues]
  · rw [queues_setQueues_of_ne _ hsession]
    exact .refl _

theorem keepsCaptures_discardPublicActions :
    legacy.KeepsCaptures (legacy.discardPublicActionsForSession sessionId).2 := by
  have hset := keepsCaptures_setQueues legacy sessionId
    (show (legacy.queues sessionId).KeepsCaptures (legacy.queues sessionId).discardPublicActions.2
      from ⟨rfl, fun _ h => h⟩)
  exact ⟨hset.queues, rfl⟩

theorem keepsCaptures_takePublicActions (limit : Nat) (now : Timestamp) :
    legacy.KeepsCaptures (legacy.takePublicActions sessionId limit now).2 := by
  have htaken : (legacy.queues sessionId).KeepsCaptures
      ((legacy.queues sessionId).takePublicActions legacy.actionCapacity limit now).2 :=
    ⟨rfl, fun _ h => h⟩
  exact ⟨(keepsCaptures_setQueues legacy sessionId
    (htaken.trans (ActionQueues.keepsCaptures_discardAll _ _))).queues, rfl⟩

theorem keepsCaptures_claim
    (actionId : Uuid) : legacy.KeepsCaptures (legacy.claimAction sessionId actionId).2 := by
  have hset := keepsCaptures_setQueues legacy sessionId
    (ActionQueues.keepsCaptures_claimAction legacy.actionCapacity actionId)
  unfold CancellableBridge.claimAction
  dsimp only
  split
  · exact ⟨hset.queues, rfl⟩
  · split_ifs
    · exact .refl _
    · split
      · exact .refl _
      · exact ⟨hset.queues, rfl⟩

end

theorem queues_enqueueAction (legacy : CancellableBridge) (action : BridgeAction) :
    (legacy.enqueueAction action).queues = (legacy.setQueues action.sessionId
      ((legacy.queues action.sessionId).enqueueAction legacy.actionCapacity action)).queues := by
  unfold CancellableBridge.enqueueAction
  dsimp only
  split_ifs <;> rfl

theorem capacity_enqueueAction (legacy : CancellableBridge) (action : BridgeAction) :
    (legacy.enqueueAction action).actionCapacity = legacy.actionCapacity := by
  unfold CancellableBridge.enqueueAction
  dsimp only
  split_ifs <;> rfl

/-- What a call can do to the captures: nothing, unless it queues one or takes some,
and then it does nothing else. -/
theorem captures_step (hstep : BridgeStep b l b') :
    b.legacy.KeepsCaptures b'.legacy ∨
      (∃ action, l.1 = .enqueueAction action ∧ action.action.isInternalCaptureAction = true ∧
        b' = b.enqueueAction action) ∨
      ∃ sessionId limit, l.1 = .takeInternalCaptureActions sessionId limit ∧
        b' = (b.takeInternalCaptureActions sessionId limit).2 := by
  obtain ⟨call, answer⟩ := l
  obtain ⟨-, rfl⟩ := Prod.ext_iff.mp hstep
  have hrefl := CancellableBridge.KeepsCaptures.refl b.legacy
  have hretire := keepsCaptures_discardPublicActions b.legacy
  have hensure : ∀ session authorityRef, b.legacy.KeepsCaptures
      (b.ensureManagedSurfaceActionAuthority session authorityRef).2.legacy := by
    intro session authorityRef
    unfold ensureManagedSurfaceActionAuthority
    split_ifs
    · exact hrefl
    · exact hretire session
  have henqueue : ∀ action, action.action.isInternalCaptureAction = false →
      b.legacy.KeepsCaptures (b.enqueueAction action).legacy := by
    intro action hpublic
    refine ⟨?_, capacity_enqueueAction b.legacy action⟩
    rw [show (b.enqueueAction action).legacy.queues = _ from queues_enqueueAction b.legacy action]
    exact (keepsCaptures_setQueues b.legacy _
      (ActionQueues.keepsCaptures_enqueueAction hpublic)).queues
  cases call with
  | enqueueAction action =>
    cases hcapture : action.action.isInternalCaptureAction with
    | true => exact .inr (Or.inl ⟨action, rfl, hcapture, rfl⟩)
    | false => exact .inl (henqueue action hcapture)
  | enqueueCanonicalAction action envelopeId metadata =>
    left
    show b.legacy.KeepsCaptures (b.enqueueCanonicalAction action envelopeId metadata).2.legacy
    rcases enqueueCanonicalAction_public (b := b) action envelopeId metadata with
      hrefused | ⟨hpublic, hadmitted⟩
    · rw [hrefused]
      exact hrefl
    · rw [hadmitted]
      exact henqueue action hpublic
  | bindDirectCanonicalAction action envelopeId metadata =>
    left
    show b.legacy.KeepsCaptures (b.bindDirectCanonicalAction action envelopeId metadata).2.legacy
    rcases bindDirectCanonicalAction_cases (b := b) action envelopeId metadata with
      ⟨error, hrefused⟩ | hadmitted
    · rw [hrefused]
      exact hrefl
    · rw [hadmitted]
      exact hrefl
  | enqueueBoundCanonicalActionForDispatch queued =>
    left
    show b.legacy.KeepsCaptures (b.enqueueBoundCanonicalActionForDispatch queued).2.legacy
    rcases (handOff_legacy b queued).2 with hlegacy | hlegacy
    · rw [hlegacy]
      exact hrefl
    · rw [hlegacy]
      unfold CancellableBridge.enqueuePreboundPublicAction
      split_ifs
      · exact hrefl
      · split
        · exact hrefl
        · next queues hbase =>
          have hqueues : _ = queues := congrArg Prod.snd hbase
          rw [← hqueues]
          exact ⟨(keepsCaptures_setQueues b.legacy _
            (ActionQueues.keepsCaptures_enqueuePrebound _)).queues, rfl⟩
  | takePublicActions session limit now =>
    exact .inl (keepsCaptures_takePublicActions b.legacy session limit now)
  | takeManagedSurfaceActions session authorityRef limit now =>
    exact .inl ((hensure session authorityRef).trans
      (keepsCaptures_takePublicActions _ session limit now))
  | takeInternalCaptureActions session limit => exact .inr (Or.inr ⟨session, limit, rfl, rfl⟩)
  | ensureManagedSurfaceActionAuthority session authorityRef =>
    exact .inl (hensure session authorityRef)
  | clearManagedSurfaceActionAuthority session =>
    left
    show b.legacy.KeepsCaptures (b.clearManagedSurfaceActionAuthority session).2.legacy
    unfold clearManagedSurfaceActionAuthority
    split_ifs
    · exact hretire session
    · exact hrefl
  | claimAction session actionId => exact .inl (keepsCaptures_claim b.legacy session actionId)
  | completeAction origin resultId now =>
    exact .inl (keepsCaptures_setQueues b.legacy origin.sessionId
      (ActionQueues.keepsCaptures_completeAction origin resultId now))
  | completeManagedSurfaceAction session authorityRef resultId now =>
    left
    show b.legacy.KeepsCaptures
      (b.completeManagedSurfaceAction session authorityRef resultId now).2.legacy
    have hclaim := keepsCaptures_claim b.legacy session resultId
    unfold completeManagedSurfaceAction LiveBridge.claimAction
    dsimp only
    split_ifs
    · exact hrefl
    · cases hclaimed : b.legacy.claimAction session resultId with
      | mk claimed legacy =>
        rw [hclaimed] at hclaim
        cases claimed with
        | none => exact hclaim
        | some action =>
          exact hclaim.trans (keepsCaptures_setQueues legacy _
            (ActionQueues.keepsCaptures_completeAction _ _ _))
  | requestActionCancellation session actionId now =>
    left
    show b.legacy.KeepsCaptures (b.legacy.requestActionCancellation session actionId now).2
    unfold CancellableBridge.requestActionCancellation
    dsimp only
    split <;> exact ⟨hrefl.queues, rfl⟩
  | acknowledgeActionCancellation session actionId now =>
    left
    show b.legacy.KeepsCaptures (b.legacy.acknowledgeActionCancellation session actionId now).2
    unfold CancellableBridge.acknowledgeActionCancellation
    dsimp only
    split
    · exact ⟨hrefl.queues, rfl⟩
    · split
      · exact ⟨hrefl.queues, rfl⟩
      · exact ⟨hrefl.queues, rfl⟩
      · exact ⟨hrefl.queues, rfl⟩
      · exact ⟨(keepsCaptures_setQueues b.legacy session
          (ActionQueues.keepsCaptures_discardAll [actionId] _)).queues, rfl⟩
  | discardBoundCanonicalAction actionId => exact .inl hrefl
  | observe eventCapacity session c => exact .inl hrefl

/-- A capture is one already, or the call mints it and tells nothing else of it. -/
theorem captureIds_step (hstep : BridgeStep b l b') {sessionId : SessionId} {id : Uuid}
    (hid : id ∈ b'.captureIds sessionId) :
    id ∈ b.captureIds sessionId ∨
      ((sessionId, id) ∈ mintedKeys l ∧ (Known b' (sessionId, id) → Known b (sessionId, id))) := by
  obtain ⟨call, answer⟩ := l
  rcases captures_step hstep with hkeeps | ⟨action, hcall, hcapture, rfl⟩ |
    ⟨session, limit, hcall, rfl⟩
  · exact .inl ((hkeeps.queues sessionId).ids id hid)
  · obtain rfl : call = _ := hcall
    replace hid : id ∈ ((b.legacy.enqueueAction action).queues sessionId).captureIds := hid
    rw [queues_enqueueAction] at hid
    by_cases hsession : sessionId = action.sessionId
    · subst hsession
      rw [queues_setQueues] at hid
      rcases ActionQueues.captureIds_enqueueAction action id hid with hold | rfl
      · exact .inl hold
      · refine .inr ⟨mem_cons_self, fun hknown => ?_⟩
        have hauthority : (b.legacy.enqueueAction action).authority = b.legacy.authority := by
          unfold CancellableBridge.enqueueAction
          rw [if_pos hcapture]
          rfl
        rcases hknown with hstate | henvelope
        · left
          rw [← hauthority]
          exact hstate
        · exact .inr henvelope
    · rw [queues_setQueues_of_ne _ hsession] at hid
      exact .inl hid
  · left
    replace hid : id ∈ ((b.legacy.setQueues session
      ((b.legacy.queues session).takeInternalCaptureActions _ limit).2).queues
        sessionId).captureIds := hid
    by_cases hsession : sessionId = session
    · subst hsession
      rw [queues_setQueues] at hid
      exact ActionQueues.captureIds_takeInternalCaptureActions limit id hid
    · rwa [queues_setQueues_of_ne _ hsession] at hid

end

/-! ## Runs -/

/-- What any run so far leaves behind. -/
structure Custody (tr : List BridgeLabel) (b : LiveBridge) : Prop where
  coherent : Coherent b.legacy
  known_minted : ∀ key, Known b key → key ∈ along mintedKeys tr
  capture_minted : ∀ sessionId, ∀ id ∈ b.captureIds sessionId,
    (sessionId, id) ∈ along mintedKeys tr
  apart : ∀ sessionId, ∀ id ∈ b.captureIds sessionId, ¬ Known b (sessionId, id)
  sound : ∀ sessionId, (b.legacy.handover sessionId).Sound b.legacy.actionCapacity

theorem custody_new (actionCapacity : Nat) : Custody [] (.new actionCapacity) := by
  refine ⟨coherent_new actionCapacity, ?_, ?_, ?_, fun _ => Handover.sound_idle _⟩
  · rintro key (hstate | ⟨envelope, henvelope, -⟩)
    · exact absurd rfl hstate
    · cases henvelope
  · exact fun _ => forall_mem_nil _
  · exact fun _ => forall_mem_nil _

section
variable {tr : List BridgeLabel} {b b' : LiveBridge} {l : BridgeLabel}

theorem Custody.not_waits (h : Custody tr b)
    (hfresh : ∀ key ∈ mintedKeys l, key ∉ along mintedKeys tr) :
    ∀ key ∈ mintedKeys l, ¬ Waits b.legacy key := fun key hkey hwaits =>
  hfresh key hkey (h.known_minted key (Or.inl (known_of_waits h.coherent hwaits)))

/-- What was just minted is not in flight. -/
theorem Custody.not_inflight (h : Custody tr b) {key : ActionKey}
    (hfresh : key ∉ along mintedKeys tr) : key.2 ∉ (b.legacy.handover key.1).inflight := by
  intro hin
  refine (h.sound key.1).recorded key.2 hin ?_
  by_contra hrecord
  refine hfresh (h.known_minted key (Or.inl fun hnone => hrecord ?_))
  exact ActionCancellationAuthority.handed_none hnone

/-- A capture in flight is none that the authority knows. -/
theorem Custody.not_capture (h : Custody tr b) {sessionId : SessionId} {id : Uuid}
    (hknown : b.legacy.authority.stateOf (sessionId, id) ≠ none) :
    id ∉ actionIds (b.legacy.queues sessionId).captureInflight := by
  intro hin
  refine h.apart sessionId id ?_ (Or.inl hknown)
  obtain ⟨action, haction, rfl⟩ := mem_map.mp hin
  exact mem_map_of_mem (mem_append_right _ haction)

theorem capacity_step (hstep : BridgeStep b l b') :
    b'.legacy.actionCapacity = b.legacy.actionCapacity := by
  rcases captures_step hstep with hkeeps | ⟨action, -, -, rfl⟩ | ⟨session, limit, -, rfl⟩
  · exact hkeeps.capacity
  · exact capacity_enqueueAction b.legacy action
  · rfl

/-- A take of a session finds room for what it puts in flight. -/
def LiveBridge.TakeFits (b : LiveBridge) (sessionId : SessionId) (limit : Nat) : Prop :=
  (b.legacy.handover sessionId).inflight.length +
    min limit (b.legacy.queues sessionId).actions.length ≤ b.legacy.actionCapacity

/-- A claim of a session drops no claimed action that has a start. -/
def LiveBridge.ClaimFits (b : LiveBridge) (sessionId : SessionId) (actionId : Uuid) : Prop :=
  b.legacy.authority.stateOf (sessionId, actionId) = some .inflight →
    (b.legacy.handover sessionId).ClaimFits b.legacy.actionCapacity

/-- A call overflows no bounded queue of delivered actions. -/
def FitsCapacity (b : LiveBridge) (l : BridgeLabel) : Prop :=
  match l.1 with
  | .takePublicActions sessionId limit _ => b.TakeFits sessionId limit
  | .takeManagedSurfaceActions sessionId authorityRef limit _ =>
      b.managedSurfaceActionAuthority sessionId = some authorityRef → b.TakeFits sessionId limit
  | .claimAction sessionId actionId => b.ClaimFits sessionId actionId
  | .completeManagedSurfaceAction sessionId authorityRef actionId _ =>
      b.managedSurfaceActionAuthority sessionId = some authorityRef →
        b.ClaimFits sessionId actionId
  | _ => True

theorem LiveBridge.ClaimFits.of_record {sessionId : SessionId} {actionId : Uuid}
    (h : b.ClaimFits sessionId actionId)
    (hrecord : (b.legacy.handover sessionId).record actionId = some .inflight) :
    (b.legacy.handover sessionId).ClaimFits b.legacy.actionCapacity :=
  h (ActionCancellationAuthority.handed_eq_some.mp hrecord).1

/-- Nothing waits and nothing is in flight of a session whose executor was retired. -/
theorem takeFits_retired (sessionId : SessionId) (limit : Nat) :
    (b.retireExecutor sessionId).TakeFits sessionId limit := by
  have hqueues : (b.retireExecutor sessionId).legacy.queues sessionId =
      (b.legacy.queues sessionId).discardPublicActions.2 := queues_setQueues
  have hinflight : ((b.retireExecutor sessionId).legacy.handover sessionId).inflight = [] := by
    show actionIds ((b.retireExecutor sessionId).legacy.queues sessionId).inflight = []
    rw [hqueues]
    rfl
  have hactions : ((b.retireExecutor sessionId).legacy.queues sessionId).actions = [] := by
    rw [hqueues]
    rfl
  unfold LiveBridge.TakeFits
  rw [hinflight, hactions, length_nil, length_nil, Nat.min_zero]
  exact Nat.zero_le _

/-- **The bridge refines the machine.**  A call takes at most two of its steps for a
session, and returns what they hand out; where the call overflows no queue, neither
do they. -/
theorem handover_step (h : Custody tr b) (hfresh : ∀ key ∈ mintedKeys l, key ∉ along mintedKeys tr)
    (hstep : BridgeStep b l b') (sessionId : SessionId) :
    ∃ mid fits fits', HandoverStep b.legacy.actionCapacity (b.legacy.handover sessionId) [] fits mid ∧
      HandoverStep b.legacy.actionCapacity mid (deliveredIds sessionId l) fits'
        (b'.legacy.handover sessionId) ∧ (FitsCapacity b l → fits ∧ fits') := by
  obtain ⟨call, answer⟩ := l
  obtain ⟨hanswer, rfl⟩ := Prod.ext_iff.mp hstep
  dsimp only at hanswer
  subst hanswer
  have hquiet : ∀ {next : Handover} {fits : Prop} (room : Prop),
      HandoverStep b.legacy.actionCapacity (b.legacy.handover sessionId) [] fits next →
      (room → fits) → ∃ mid fits fits',
        HandoverStep b.legacy.actionCapacity (b.legacy.handover sessionId) [] fits mid ∧
          HandoverStep b.legacy.actionCapacity mid [] fits' next ∧ (room → fits ∧ fits') :=
    fun room hnext hfits => ⟨_, _, _, hnext, .quiet, fun hroom => ⟨hfits hroom, trivial⟩⟩
  have hone : ∀ {next : Handover} (room : Prop),
      HandoverStep b.legacy.actionCapacity (b.legacy.handover sessionId) [] True next →
      ∃ mid fits fits',
        HandoverStep b.legacy.actionCapacity (b.legacy.handover sessionId) [] fits mid ∧
          HandoverStep b.legacy.actionCapacity mid [] fits' next ∧ (room → fits ∧ fits') :=
    fun room hnext => hquiet room hnext fun _ => trivial
  have hretire : ∀ session other, HandoverStep b.legacy.actionCapacity (b.legacy.handover other) []
      True ((b.retireExecutor session).legacy.handover other) := handover_discardPublicActions
  have hensure : ∀ session authorityRef other,
      HandoverStep b.legacy.actionCapacity (b.legacy.handover other) [] True
        ((b.ensureManagedSurfaceActionAuthority session authorityRef).2.legacy.handover other) := by
    intro session authorityRef other
    unfold ensureManagedSurfaceActionAuthority
    split_ifs
    · exact .quiet
    · exact hretire session other
  cases call with
  | enqueueAction action =>
    exact hone _ (handover_enqueueAction action
      (h.not_inflight (hfresh action.key mem_cons_self)) sessionId)
  | enqueueCanonicalAction action envelopeId metadata =>
    refine hone _ ?_
    show HandoverStep _ _ [] True
      ((b.enqueueCanonicalAction action envelopeId metadata).2.legacy.handover sessionId)
    rcases enqueueCanonicalAction_cases (b := b) action envelopeId metadata with
      ⟨error, hrefused⟩ | hadmitted
    · rw [hrefused]
      exact .quiet
    · rw [hadmitted]
      exact handover_enqueueAction action
        (h.not_inflight (hfresh action.key mem_cons_self)) sessionId
  | bindDirectCanonicalAction action envelopeId metadata =>
    refine hone _ ?_
    show HandoverStep _ _ [] True
      ((b.bindDirectCanonicalAction action envelopeId metadata).2.legacy.handover sessionId)
    rcases bindDirectCanonicalAction_cases (b := b) action envelopeId metadata with
      ⟨error, hrefused⟩ | hadmitted
    · rw [hrefused]
      exact .quiet
    · rw [hadmitted]
      exact .quiet
  | discardBoundCanonicalAction actionId => exact hone _ .quiet
  | enqueueBoundCanonicalActionForDispatch queued =>
    refine hone _ ?_
    show HandoverStep _ _ [] True
      ((b.enqueueBoundCanonicalActionForDispatch queued).2.legacy.handover sessionId)
    rcases (handOff_legacy b queued).2 with hlegacy | hlegacy
    · rw [hlegacy]
      exact .quiet
    · rw [hlegacy]
      exact handover_enqueuePrebound queued.action sessionId
  | takePublicActions session limit now =>
    obtain ⟨fits, hnext, hfits⟩ := handover_takePublicActions h.coherent (h.sound session).room
      limit now sessionId
    exact ⟨_, _, fits, .quiet, hnext, fun hroom => ⟨trivial, hfits hroom⟩⟩
  | takeManagedSurfaceActions session authorityRef limit now =>
    -- the executor before may be retired first
    let next := (b.ensureManagedSurfaceActionAuthority session authorityRef).2
    have hfirst := hensure session authorityRef
    have hstart := effect_ensureAuthority h.coherent session authorityRef
    have hcapacity : next.legacy.actionCapacity = b.legacy.actionCapacity :=
      capacity_step (l := (.ensureManagedSurfaceActionAuthority session authorityRef, _)) rfl
    have hroom : (next.legacy.handover session).inflight.length ≤ next.legacy.actionCapacity := by
      rw [hcapacity]
      exact ((hfirst session).sound (h.sound session)).room
    obtain ⟨fits, hnext, hfits⟩ := handover_takePublicActions hstart.1.coherent hroom limit now
      sessionId
    rw [hcapacity] at hnext
    refine ⟨_, _, fits, hfirst sessionId, hnext, fun hroom => ⟨trivial, hfits ?_⟩⟩
    show next.TakeFits session limit
    by_cases hcurrent : b.managedSurfaceActionAuthority session = some authorityRef
    · have hsame : next = b := congrArg Prod.snd (if_pos hcurrent)
      rw [hsame]
      exact hroom hcurrent
    · have hretired : next.legacy = (b.retireExecutor session).legacy := by
        show (b.ensureManagedSurfaceActionAuthority session authorityRef).2.legacy = _
        unfold ensureManagedSurfaceActionAuthority
        rw [if_neg hcurrent]
      unfold LiveBridge.TakeFits
      rw [hretired]
      exact takeFits_retired session limit
  | takeInternalCaptureActions session limit =>
    refine hone _ ?_
    have hsame : (b.takeInternalCaptureActions session limit).2.legacy.handover sessionId =
        b.legacy.handover sessionId := handover_setQueues rfl rfl rfl
    show HandoverStep _ _ [] True ((b.takeInternalCaptureActions session limit).2.legacy.handover _)
    rw [hsame]
    exact .quiet
  | ensureManagedSurfaceActionAuthority session authorityRef =>
    exact hone _ (hensure session authorityRef sessionId)
  | clearManagedSurfaceActionAuthority session =>
    refine hone _ ?_
    show HandoverStep _ _ [] True ((b.clearManagedSurfaceActionAuthority session).2.legacy.handover _)
    unfold clearManagedSurfaceActionAuthority
    split_ifs
    · exact hretire session sessionId
    · exact .quiet
  | claimAction session actionId =>
    obtain ⟨fits, hnext, hfits⟩ := handover_claimAction actionId
      (fun hknown => h.not_capture hknown) (h.sound session).recorded sessionId
    exact hquiet _ hnext fun hroom => hfits hroom.of_record
  | completeAction origin resultId now =>
    exact hone _ (handover_completeAction origin resultId now sessionId)
  | completeManagedSurfaceAction session authorityRef resultId now =>
    have hcustody : b.legacy.authority.stateOf (session, resultId) ≠ none →
        resultId ∉ actionIds (b.legacy.queues session).captureInflight :=
      fun hknown => h.not_capture hknown
    obtain ⟨fits, hclaim, hfits⟩ :=
      handover_claimAction resultId hcustody (h.sound session).recorded sessionId
    have hcapacity := (keepsCaptures_claim b.legacy session resultId).capacity
    show ∃ mid fits fits', _ ∧ HandoverStep _ mid [] fits'
      ((b.completeManagedSurfaceAction session authorityRef resultId now).2.legacy.handover _) ∧ _
    unfold completeManagedSurfaceAction LiveBridge.claimAction
    dsimp only
    split_ifs with hstale
    · exact hone _ .quiet
    · cases hclaimed : b.legacy.claimAction session resultId with
      | mk claimed legacy =>
        rw [hclaimed] at hclaim hcapacity
        cases claimed with
        | none => exact hquiet _ hclaim fun hroom => hfits (hroom (not_not.mp hstale)).of_record
        | some action =>
          have hcomplete := handover_completeAction (b := legacy) (.action action) resultId now
            sessionId
          rw [show legacy.actionCapacity = _ from hcapacity] at hcomplete
          exact ⟨_, fits, _, hclaim, hcomplete, fun hroom =>
            ⟨hfits (hroom (not_not.mp hstale)).of_record, trivial⟩⟩
  | requestActionCancellation session actionId now =>
    exact hone _ (handover_requestActionCancellation actionId now sessionId)
  | acknowledgeActionCancellation session actionId now =>
    exact hone _ (handover_acknowledgeActionCancellation actionId now sessionId)
  | observe eventCapacity session c => exact hone _ .quiet

/-- **Step.**  Custody survives every call that mints fresh actions only. -/
theorem custody_step (h : Custody tr b) (hfresh : ∀ key ∈ mintedKeys l, key ∉ along mintedKeys tr)
    (hstep : BridgeStep b l b') : Custody (tr ++ [l]) b' := by
  have hwaits := h.not_waits hfresh
  obtain ⟨enqueued, heffect, -, -⟩ := bridgeEffect_step h.coherent hstep hwaits
  have hgrows : ∀ {key : ActionKey}, key ∈ along mintedKeys tr ∨ key ∈ mintedKeys l →
      key ∈ along mintedKeys (tr ++ [l]) := by
    intro key hkey
    rw [along_append, along_singleton]
    exact mem_append.mpr hkey
  refine ⟨heffect.coherent, fun key hkey => ?_, fun sessionId id hid => ?_,
    fun sessionId id hid hknown => ?_, fun sessionId => ?_⟩
  · exact hgrows ((known_step h.coherent hstep hwaits hkey).imp_left (h.known_minted key))
  · exact hgrows ((captureIds_step hstep hid).imp (h.capture_minted sessionId id) And.left)
  · rcases captureIds_step hstep hid with hold | ⟨hminted, hback⟩
    · rcases known_step h.coherent hstep hwaits hknown with hbefore | hminted
      · exact h.apart sessionId id hold hbefore
      · exact hfresh _ hminted (h.capture_minted sessionId id hold)
    · exact hfresh _ hminted (h.known_minted _ (hback hknown))
  · obtain ⟨mid, _, _, hfirst, hsecond, -⟩ := handover_step h hfresh hstep sessionId
    rw [capacity_step hstep]
    exact hsecond.sound (hfirst.sound (h.sound sessionId))

end

end Localview
