import Localview.ActionCustody

/-! # Rotation of the managed surface's executor

A session's public actions go to the executor of its managed surface.  When that
executor changes, all it left is retired: queued actions, actions in flight or
claimed, their entries with the cancellation authority, and their envelopes
(`retired_of_rotation`).  So what is still known of an action belongs to one
executor all along (`Tenure`), whichever calls come in between.

Runs here may make any call but a take for another client: the native client's own
take, and that of the internal captures, hand actions out under no authority.
-/
namespace Localview
open StateRun List Function ActionCancellationAuthority LiveBridge

/-- A take that names no managed surface. -/
def BridgeCall.isPlainTake : BridgeCall → Bool
  | .takePublicActions _ _ _ | .takeInternalCaptureActions _ _ => true
  | _ => false

/-- The actions a call puts into a public queue. -/
def enqueuedKeys : BridgeLabel → List ActionKey
  | (.enqueueAction action, _) =>
      if action.action.isInternalCaptureAction then [] else [action.key]
  | (.enqueueCanonicalAction action _ _, .bound (.ok _)) => [action.key]
  | (.enqueueBoundCanonicalActionForDispatch queued, .handedOff (.ok ())) => [queued.action.key]
  | _ => []

/-- The executor of an authority takes the action. -/
def TakenBy (authorityRef : String) (key : ActionKey) (l : BridgeLabel) : Prop :=
  ∃ limit now actions,
    l = (.takeManagedSurfaceActions key.1 authorityRef limit now, .taken actions) ∧
      key.2 ∈ actionIds actions

/-- The session's authority is `authority` once the calls `earlier` are made, and
at every moment from then to the end of `later`. -/
def HeldThroughout (actionCapacity : Nat) (sessionId : SessionId) (authority : Option String)
    (earlier later : List BridgeLabel) : Prop :=
  ∀ mid rest b, later = mid ++ rest → Run BridgeStep (.new actionCapacity) (earlier ++ mid) b →
    b.managedSurfaceActionAuthority sessionId = authority

/-- Nothing is left of a session's public actions. -/
structure Retired (b : LiveBridge) (sessionId : SessionId) : Prop where
  actions : (b.legacy.queues sessionId).actions = []
  inflight : (b.legacy.queues sessionId).inflight = []
  claimed : (b.legacy.queues sessionId).claimed = []
  startedAt : ∀ id, (b.legacy.queues sessionId).actionStartedAt id = none
  entries : ∀ id, b.legacy.authority.actions (sessionId, id) = none
  queued : b.legacy.authority.queued sessionId = []
  cancelledOrder : ∀ key ∈ b.legacy.authority.cancelledOrder, key.1 ≠ sessionId
  envelopes : ∀ id envelope, b.actionEnvelopes id = some envelope → envelope.sessionId ≠ sessionId

/-- What a run of managed-surface calls promises. -/
structure SurfaceRotation (actionCapacity : Nat) (tr : List BridgeLabel) : Prop where
  /-- An action is returned only to the authority that was current at every moment
  since it was enqueued. -/
  taken : ∀ before take after, tr = before ++ take :: after → ∀ authorityRef key,
    TakenBy authorityRef key take → key ∈ along enqueuedKeys before ∧
      ∀ earlier enqueue between, before = earlier ++ enqueue :: between →
        key ∈ enqueuedKeys enqueue →
        HeldThroughout actionCapacity key.1 (some authorityRef) earlier (enqueue :: between)
  /-- A completion is accepted only of the authority that took the action, and that
  is the current one ever since. -/
  completed : ∀ before complete after, tr = before ++ complete :: after →
    ∀ sessionId authorityRef actionId now,
      complete = (.completeManagedSurfaceAction sessionId authorityRef actionId now,
        .completion .completed) →
      (∃ earlier take between, before = earlier ++ take :: between ∧
        TakenBy authorityRef (sessionId, actionId) take) ∧
      ∀ earlier take between takerRef, before = earlier ++ take :: between →
        TakenBy takerRef (sessionId, actionId) take → takerRef = authorityRef ∧
          HeldThroughout actionCapacity sessionId (some authorityRef) earlier (take :: between)
  /-- A change of authority retires whatever the executor before left. -/
  rotated : ∀ before l after b b' sessionId, tr = before ++ l :: after →
    Run BridgeStep (.new actionCapacity) before b → BridgeStep b l b' →
      b'.managedSurfaceActionAuthority sessionId ≠ b.managedSurfaceActionAuthority sessionId →
      Retired b' sessionId

/-! ## A change of authority -/

theorem cancelledOrder_pruneExcess (excess : Nat) (a : ActionCancellationAuthority) :
    ∀ key ∈ (pruneExcess excess a).cancelledOrder,
      key ∈ a.cancelledOrder := by
  induction excess generalizing a with
  | zero => exact fun _ h => h
  | succ excess ih =>
    intro key hkey
    unfold pruneExcess at hkey
    split at hkey
    · exact hkey
    · have hforget : ∀ (a : ActionCancellationAuthority) key state,
          (a.forgetIf key state).cancelledOrder = a.cancelledOrder := by
        intro a key state
        unfold forgetIf
        split_ifs <;> rfl
      have hrest := ih _ key hkey
      rw [hforget] at hrest
      exact mem_of_mem_eraseP hrest

theorem actions_pruneExcess {key : ActionKey} (excess : Nat) {a : ActionCancellationAuthority}
    (h : a.actions key = none) :
    (pruneExcess excess a).actions key = none := by
  induction excess generalizing a with
  | zero => exact h
  | succ excess ih =>
    unfold pruneExcess
    split
    · exact h
    · next erased hfind =>
      refine ih ?_
      unfold forgetIf
      split_ifs
      · show update a.actions erased none key = none
        by_cases hk : key = erased
        · rw [hk, update_self]
        · rw [update_of_ne hk]
          exact h
      · exact h

section
variable {b b' : LiveBridge} {l : BridgeLabel} {sessionId : SessionId}

theorem Retired.not_known (h : Retired b sessionId) (id : Uuid) : ¬ Known b (sessionId, id) := by
  rintro (hstate | ⟨envelope, henvelope, hsession⟩)
  · refine hstate ?_
    unfold ActionCancellationAuthority.stateOf
    rw [h.entries]
    rfl
  · exact h.envelopes id envelope henvelope hsession

theorem retired_retireExecutor (b : LiveBridge) (sessionId : SessionId) :
    Retired (b.retireExecutor sessionId) sessionId := by
  have hqueues : (b.retireExecutor sessionId).legacy.queues sessionId =
      (b.legacy.queues sessionId).discardPublicActions.2 := queues_setQueues
  refine ⟨?_, ?_, ?_, fun id => ?_, fun id => if_pos rfl, update_self .., ?_, ?_⟩
  · rw [hqueues]
    rfl
  · rw [hqueues]
    rfl
  · rw [hqueues]
    rfl
  · rw [hqueues]
    rfl
  · intro key hkey
    exact of_decide_eq_true (mem_filter.mp hkey).2
  · intro id envelope henvelope
    exact of_decide_eq_true (Option.filter_eq_some_iff.mp henvelope).2

/-- There is nothing to take. -/
theorem Retired.take (h : Retired b sessionId) (limit : Nat) (now : Timestamp) :
    (b.takePublicActions sessionId limit now).1 = [] ∧
      Retired (b.takePublicActions sessionId limit now).2 sessionId := by
  have htaken : (b.legacy.queues sessionId).actions.take limit = [] := by
    rw [h.actions, take_nil]
  have hanswer : b.legacy.takePublicActions sessionId limit now =
      ([], { b.legacy.setQueues sessionId
          ((b.legacy.queues sessionId).takePublicActions b.legacy.actionCapacity limit now).2 with
        authority := b.legacy.authority.pruneCancelledTombstones }) := by
    unfold CancellableBridge.takePublicActions ActionQueues.takePublicActions drainActions
    dsimp only
    rw [htaken]
    rfl
  have hqueues : (b.takePublicActions sessionId limit now).2.legacy.queues sessionId =
      ((b.legacy.queues sessionId).takePublicActions b.legacy.actionCapacity limit now).2 := by
    show (b.legacy.takePublicActions sessionId limit now).2.queues sessionId = _
    rw [hanswer]
    exact queues_setQueues
  have hauthority : (b.takePublicActions sessionId limit now).2.legacy.authority =
      b.legacy.authority.pruneCancelledTombstones := by
    show (b.legacy.takePublicActions sessionId limit now).2.authority = _
    rw [hanswer]
  refine ⟨congrArg Prod.fst hanswer, ?_, ?_, ?_, fun id => ?_, fun id => ?_, ?_, ?_, h.envelopes⟩
  · rw [hqueues]
    show (b.legacy.queues sessionId).actions.drop limit = []
    rw [h.actions, drop_nil]
  · rw [hqueues]
    unfold ActionQueues.takePublicActions drainActions
    dsimp only
    rw [htaken]
    exact h.inflight
  · rw [hqueues]
    exact h.claimed
  · rw [hqueues]
    unfold ActionQueues.takePublicActions drainActions
    dsimp only
    rw [htaken]
    exact h.startedAt id
  · rw [hauthority]
    exact actions_pruneExcess _ (h.entries id)
  · rw [hauthority, queued_prune]
    exact h.queued
  · rw [hauthority]
    exact fun key hkey => h.cancelledOrder key (cancelledOrder_pruneExcess _ _ key hkey)

/-- The authorities change only through the three calls of the managed surface. -/
theorem authority_step (hstep : BridgeStep b l b')
    (hother : ∀ session authorityRef limit now,
      l.1 ≠ .takeManagedSurfaceActions session authorityRef limit now ∧
        l.1 ≠ .ensureManagedSurfaceActionAuthority session authorityRef ∧
        l.1 ≠ .clearManagedSurfaceActionAuthority session) :
    b'.managedSurfaceActionAuthority = b.managedSurfaceActionAuthority := by
  obtain ⟨call, answer⟩ := l
  obtain ⟨-, rfl⟩ := Prod.ext_iff.mp hstep
  cases call with
  | takeManagedSurfaceActions session authorityRef limit now =>
    exact absurd rfl (hother session authorityRef limit now).1
  | ensureManagedSurfaceActionAuthority session authorityRef =>
    exact absurd rfl (hother session authorityRef 0 0).2.1
  | clearManagedSurfaceActionAuthority session => exact absurd rfl (hother session "" 0 0).2.2
  | enqueueCanonicalAction action envelopeId metadata =>
    show (b.enqueueCanonicalAction action envelopeId metadata).2.managedSurfaceActionAuthority = _
    rcases enqueueCanonicalAction_cases (b := b) action envelopeId metadata with
      ⟨error, hrefused⟩ | hadmitted
    · rw [hrefused]
    · rw [hadmitted]
      rfl
  | bindDirectCanonicalAction action envelopeId metadata =>
    show (b.bindDirectCanonicalAction action envelopeId metadata).2.managedSurfaceActionAuthority = _
    rcases bindDirectCanonicalAction_cases (b := b) action envelopeId metadata with
      ⟨error, hrefused⟩ | hadmitted
    · rw [hrefused]
    · rw [hadmitted]
      rfl
  | enqueueBoundCanonicalActionForDispatch queued => exact (handOff_legacy b queued).1
  | completeManagedSurfaceAction session authorityRef resultId now =>
    show (b.completeManagedSurfaceAction session authorityRef resultId
      now).2.managedSurfaceActionAuthority = _
    unfold completeManagedSurfaceAction claimAction
    dsimp only
    split_ifs
    · rfl
    · cases b.legacy.claimAction session resultId with
      | mk claimed legacy => cases claimed <;> rfl
  | enqueueAction | discardBoundCanonicalAction | takePublicActions | takeInternalCaptureActions
  | claimAction | completeAction | requestActionCancellation | acknowledgeActionCancellation
  | observe => rfl

/-- **A rotation retires.**  Where a call changes a session's authority, nothing is
left of the session's public actions. -/
theorem retired_of_rotation (hstep : BridgeStep b l b')
    (hrotates : b'.managedSurfaceActionAuthority sessionId ≠
      b.managedSurfaceActionAuthority sessionId) : Retired b' sessionId := by
  obtain ⟨call, answer⟩ := l
  have hensure : ∀ session authorityRef,
      (b.ensureManagedSurfaceActionAuthority session authorityRef).2.managedSurfaceActionAuthority
          sessionId ≠ b.managedSurfaceActionAuthority sessionId →
        session = sessionId ∧
          Retired (b.ensureManagedSurfaceActionAuthority session authorityRef).2 sessionId := by
    intro session authorityRef hchanged
    unfold ensureManagedSurfaceActionAuthority at hchanged ⊢
    split_ifs at hchanged ⊢ with hsame
    · exact absurd rfl hchanged
    · by_cases hsession : session = sessionId
      · subst hsession
        have hretired := retired_retireExecutor b session
        exact ⟨rfl, hretired.actions, hretired.inflight, hretired.claimed, hretired.startedAt,
          hretired.entries, hretired.queued, hretired.cancelledOrder, hretired.envelopes⟩
      · exact absurd (update_of_ne (Ne.symm hsession) ..) hchanged
  by_cases hmanaged : ∀ session authorityRef limit now,
      call ≠ .takeManagedSurfaceActions session authorityRef limit now ∧
        call ≠ .ensureManagedSurfaceActionAuthority session authorityRef ∧
        call ≠ .clearManagedSurfaceActionAuthority session
  · exact absurd (congrFun (authority_step hstep hmanaged) sessionId) hrotates
  · obtain ⟨-, rfl⟩ := Prod.ext_iff.mp hstep
    cases call with
    | takeManagedSurfaceActions session authorityRef limit now =>
      obtain ⟨rfl, hretired⟩ := hensure session authorityRef hrotates
      exact (hretired.take limit now).2
    | ensureManagedSurfaceActionAuthority session authorityRef =>
      exact (hensure session authorityRef hrotates).2
    | clearManagedSurfaceActionAuthority session =>
      replace hrotates : (b.clearManagedSurfaceActionAuthority
        session).2.managedSurfaceActionAuthority sessionId ≠ _ := hrotates
      show Retired (b.clearManagedSurfaceActionAuthority session).2 sessionId
      unfold clearManagedSurfaceActionAuthority at hrotates ⊢
      split_ifs at hrotates ⊢
      · by_cases hsession : session = sessionId
        · subst hsession
          have hretired := retired_retireExecutor b session
          exact ⟨hretired.actions, hretired.inflight, hretired.claimed, hretired.startedAt,
            hretired.entries, hretired.queued, hretired.cancelledOrder, hretired.envelopes⟩
        · exact absurd (update_of_ne (Ne.symm hsession) ..) hrotates
      · exact absurd rfl hrotates
    | _ => exact absurd (fun _ _ _ _ => ⟨nofun, nofun, nofun⟩) hmanaged

end

/-! ## Tenure -/

theorem bridgeStep_unique (b : LiveBridge) (l : BridgeLabel) (t t' : LiveBridge)
    (h : BridgeStep b l t) (h' : BridgeStep b l t') : t = t' :=
  congrArg Prod.snd (h.symm.trans h')

section
variable {actionCapacity : Nat} {tr earlier later : List BridgeLabel} {b b' : LiveBridge}
  {l : BridgeLabel} {sessionId : SessionId} {authority : Option String}

theorem HeldThroughout.nil (hrun : Run BridgeStep (.new actionCapacity) earlier b)
    (hauthority : b.managedSurfaceActionAuthority sessionId = authority) :
    HeldThroughout actionCapacity sessionId authority earlier [] := by
  intro mid rest u hparts hu
  obtain ⟨rfl, rfl⟩ := append_eq_nil_iff.mp hparts.symm
  rw [append_nil] at hu
  rw [hu.unique bridgeStep_unique hrun]
  exact hauthority

theorem HeldThroughout.snoc (h : HeldThroughout actionCapacity sessionId authority earlier later)
    (hrun : Run BridgeStep (.new actionCapacity) (earlier ++ later ++ [l]) b)
    (hauthority : b.managedSurfaceActionAuthority sessionId = authority) :
    HeldThroughout actionCapacity sessionId authority earlier (later ++ [l]) := by
  intro mid rest u hparts hu
  rcases eq_nil_or_concat rest with rfl | ⟨rest, last, rfl⟩
  · rw [append_nil] at hparts
    rw [← hparts, ← append_assoc] at hu
    rw [hu.unique bridgeStep_unique hrun]
    exact hauthority
  · rw [concat_eq_append, ← append_assoc] at hparts
    exact h mid rest u (append_inj' hparts rfl).1 hu

/-- What the calls say of an action: that it is queued, or returned. -/
def touchedKeys (l : BridgeLabel) : List ActionKey := enqueuedKeys l ++ deliveredKeys l

/-- What is known of an action belongs to one executor: the session's authority is
the same since the action was queued, and since it was returned. -/
structure Tenure (actionCapacity : Nat) (tr : List BridgeLabel) (b : LiveBridge) : Prop where
  custody : Custody tr b
  touched_minted : ∀ key ∈ along touchedKeys tr, key ∈ along mintedKeys tr
  held : ∀ key, Known b key → ∀ earlier call later, tr = earlier ++ call :: later →
    key ∈ touchedKeys call → HeldThroughout actionCapacity key.1
      (b.managedSurfaceActionAuthority key.1) earlier (call :: later)
  enqueued : ∀ key, b.legacy.authority.stateOf key ≠ none → key ∈ along enqueuedKeys tr
  returned : ∀ key : ActionKey, (b.legacy.handover key.1).record key.2 = some .inflight →
    key ∈ along deliveredKeys tr
  noCapture : ∀ sessionId, (b.legacy.queues sessionId).captureInflight = []

theorem tenure_new (actionCapacity : Nat) : Tenure actionCapacity [] (.new actionCapacity) := by
  refine ⟨custody_new actionCapacity, forall_mem_nil _, ?_, ?_, ?_, fun _ => rfl⟩
  · intro key _ earlier call later hparts
    cases earlier <;> cases hparts
  · exact fun key hstate => absurd rfl hstate
  · intro key hrecord
    cases hrecord

variable {key : ActionKey}

/-- A call queues an action it mints, or one an envelope tells of. -/
theorem enqueuedKeys_known (h : Coherent b.legacy) (hstep : BridgeStep b l b')
    (hkey : key ∈ enqueuedKeys l) : key ∈ mintedKeys l ∨ Known b key := by
  obtain ⟨call, answer⟩ := l
  obtain ⟨hanswer, -⟩ := Prod.ext_iff.mp hstep
  cases call with
  | enqueueAction action =>
    replace hkey : key ∈ (if action.action.isInternalCaptureAction then []
      else [action.key]) := hkey
    split_ifs at hkey
    · cases hkey
    · exact .inl hkey
  | enqueueCanonicalAction action envelopeId metadata =>
    left
    unfold enqueuedKeys at hkey
    split at hkey
    · next hlabel => cases hlabel
    · next hlabel =>
      obtain ⟨rfl, -⟩ := BridgeCall.enqueueCanonicalAction.inj (congrArg Prod.fst hlabel)
      exact hkey
    · next hlabel => cases hlabel
    · cases hkey
  | enqueueBoundCanonicalActionForDispatch queued =>
    right
    unfold enqueuedKeys at hkey
    split at hkey
    · next hlabel => cases hlabel
    · next hlabel => cases hlabel
    · next hlabel =>
      obtain ⟨hcall, rfl⟩ := Prod.ext_iff.mp hlabel
      obtain rfl := BridgeCall.enqueueBoundCanonicalActionForDispatch.inj hcall
      obtain rfl := mem_singleton.mp hkey
      rcases handOff_cases h queued with ⟨hadmits, -⟩ | ⟨-, ⟨error, herror⟩, -⟩
      · exact .inr ⟨queued.envelope, hadmits.2.2.1, hadmits.2.1.symm⟩
      · replace hanswer : BridgeAnswer.handedOff
            (b.enqueueBoundCanonicalActionForDispatch queued).1 = .handedOff (.ok ()) := hanswer
        rw [herror] at hanswer
        cases hanswer
    · cases hkey
  | _ => cases hkey

/-- A call returns only actions the authority knows, and then rotates nothing. -/
theorem deliveredKeys_known (h : Coherent b.legacy) (hstep : BridgeStep b l b')
    (hfresh : ∀ key ∈ mintedKeys l, ¬ Waits b.legacy key) (hkey : key ∈ deliveredKeys l) :
    Known b key := by
  obtain ⟨enqueued, heffect, -, -⟩ := bridgeEffect_step h hstep hfresh
  refine .inl ?_
  rw [(heffect.delivered_pending key hkey).2]
  exact Option.some_ne_none _

/-- The authority that takes an action is the current one before the take and
after it. -/
theorem authority_of_taken (hstep : BridgeStep b l b') {authorityRef : String}
    (htaken : TakenBy authorityRef key l) :
    b.managedSurfaceActionAuthority key.1 = some authorityRef ∧
      b'.managedSurfaceActionAuthority key.1 = some authorityRef := by
  obtain ⟨limit, now, actions, rfl, hid⟩ := htaken
  obtain ⟨hanswer, rfl⟩ := Prod.ext_iff.mp hstep
  replace hanswer : BridgeAnswer.taken (b.takeManagedSurfaceActions key.1 authorityRef limit now).1 =
    .taken actions := hanswer
  show _ ∧ (b.takeManagedSurfaceActions key.1 authorityRef limit
    now).2.managedSurfaceActionAuthority key.1 = _
  by_cases hcurrent : b.managedSurfaceActionAuthority key.1 = some authorityRef
  · refine ⟨hcurrent, ?_⟩
    unfold takeManagedSurfaceActions ensureManagedSurfaceActionAuthority
    rw [if_pos hcurrent]
    exact hcurrent
  · -- a new executor finds nothing
    have hretired := retired_retireExecutor b key.1
    have hquiet : Retired (b.ensureManagedSurfaceActionAuthority key.1 authorityRef).2 key.1 := by
      unfold ensureManagedSurfaceActionAuthority
      rw [if_neg hcurrent]
      exact ⟨hretired.actions, hretired.inflight, hretired.claimed, hretired.startedAt,
        hretired.entries, hretired.queued, hretired.cancelledOrder, hretired.envelopes⟩
    have hnothing := (hquiet.take limit now).1
    have hempty : actions = [] := (BridgeAnswer.taken.inj hanswer).symm.trans hnothing
    rw [hempty] at hid
    cases hid

/-- An entry comes with the action's being queued. -/
theorem enqueued_step (h : Coherent b.legacy) (hstep : BridgeStep b l b')
    (hfresh : ∀ key ∈ mintedKeys l, ¬ Waits b.legacy key)
    (hknown : b'.legacy.authority.stateOf key ≠ none) :
    b.legacy.authority.stateOf key ≠ none ∨ key ∈ enqueuedKeys l := by
  obtain ⟨enqueued, heffect, henqueues, -⟩ := bridgeEffect_step h hstep hfresh
  rcases heffect.known key hknown with hnew | hold
  swap
  · exact .inl hold
  obtain ⟨call, answer⟩ := l
  obtain ⟨hanswer, rfl⟩ := Prod.ext_iff.mp hstep
  dsimp only at hanswer
  subst hanswer
  cases (henqueues key hnew).2 with
  | minted hminted =>
    cases call with
    | enqueueAction action =>
      obtain rfl := mem_singleton.mp hminted
      by_cases hcapture : action.action.isInternalCaptureAction = true
      · left
        have hauthority : (b.legacy.enqueueAction action).authority = b.legacy.authority := by
          unfold CancellableBridge.enqueueAction
          rw [if_pos hcapture]
          rfl
        rw [← hauthority]
        exact hknown
      · right
        show action.key ∈ if action.action.isInternalCaptureAction then [] else [action.key]
        rw [if_neg hcapture]
        exact mem_cons_self
    | enqueueCanonicalAction action envelopeId metadata =>
      obtain rfl := mem_singleton.mp hminted
      rcases enqueueCanonicalAction_cases (b := b) action envelopeId metadata with
        ⟨error, hrefused⟩ | hadmitted
      · left
        replace hknown : (b.enqueueCanonicalAction action envelopeId
          metadata).2.legacy.authority.stateOf action.key ≠ none := hknown
        rwa [hrefused] at hknown
      · right
        have hlabel : (b.run (.enqueueCanonicalAction action envelopeId metadata)).1 =
            .bound (.ok ⟨action, envelopeFor action envelopeId metadata⟩) := by
          show BridgeAnswer.bound (b.enqueueCanonicalAction action envelopeId metadata).1 = _
          rw [hadmitted]
        rw [hlabel]
        exact mem_cons_self
    | bindDirectCanonicalAction action envelopeId metadata =>
      left
      replace hknown : (b.bindDirectCanonicalAction action envelopeId
        metadata).2.legacy.authority.stateOf key ≠ none := hknown
      rcases bindDirectCanonicalAction_cases (b := b) action envelopeId metadata with
        ⟨error, hrefused⟩ | hadmitted
      · rwa [hrefused] at hknown
      · rw [hadmitted] at hknown
        exact hknown
    | _ => cases hminted
  | handedOff queued hcall hkey hadmits hconsumed =>
    right
    obtain rfl : call = _ := hcall
    rcases handOff_cases h queued with ⟨-, hok, -⟩ | ⟨hnot, -⟩
    · have hlabel : (b.run (.enqueueBoundCanonicalActionForDispatch queued)).1 =
          .handedOff (.ok ()) := by
        show BridgeAnswer.handedOff (b.enqueueBoundCanonicalActionForDispatch queued).1 = _
        rw [hok]
      rw [hlabel, hkey]
      exact mem_cons_self
    · exact absurd hadmits hnot

/-- **Step.**  Tenure survives every call but a take for another client. -/
theorem tenure_step (h : Tenure actionCapacity tr b)
    (hrun : Run BridgeStep (.new actionCapacity) tr b)
    (hfresh : ∀ key ∈ mintedKeys l, key ∉ along mintedKeys tr)
    (hplain : l.1.isPlainTake = false) (hstep : BridgeStep b l b') :
    Tenure actionCapacity (tr ++ [l]) b' := by
  have hcoherent := h.custody.coherent
  have hwaits := h.custody.not_waits hfresh
  have htouched : ∀ key ∈ touchedKeys l, key ∈ mintedKeys l ∨ Known b key := by
    intro key hkey
    rcases mem_append.mp hkey with henqueued | hdelivered
    · exact enqueuedKeys_known hcoherent hstep henqueued
    · exact .inr (deliveredKeys_known hcoherent hstep hwaits hdelivered)
  have hgrows : ∀ {f : BridgeLabel → List ActionKey} {key : ActionKey},
      key ∈ along f tr ∨ key ∈ f l → key ∈ along f (tr ++ [l]) := by
    intro f key hkey
    rw [along_append, along_singleton]
    exact mem_append.mpr hkey
  refine ⟨custody_step h.custody hfresh hstep, ?_, ?_, ?_, ?_, ?_⟩
  · intro key hkey
    rw [along_append, along_singleton] at hkey
    rcases mem_append.mp hkey with hold | hnew
    · exact hgrows (Or.inl (h.touched_minted key hold))
    · exact hgrows ((htouched key hnew).symm.imp_left (h.custody.known_minted key))
  · intro key hknown earlier call later hparts hkey
    -- what is still known was not retired
    have hsame : b'.managedSurfaceActionAuthority key.1 = b.managedSurfaceActionAuthority key.1 := by
      by_contra hrotates
      exact (retired_of_rotation hstep hrotates).not_known key.2 hknown
    rcases eq_nil_or_concat later with rfl | ⟨later, last, rfl⟩
    · obtain ⟨rfl, hlast⟩ := append_inj' hparts rfl
      obtain rfl := singleton_inj.mp hlast
      refine (HeldThroughout.nil hrun hsame.symm).snoc ?_ rfl
      rw [append_nil]
      exact hrun.snoc hstep
    · rw [concat_eq_append, ← cons_append, ← append_assoc] at hparts
      obtain ⟨rfl, hlast⟩ := append_inj' hparts rfl
      obtain rfl := singleton_inj.mp hlast
      rw [concat_eq_append, ← cons_append, hsame]
      have hmem : key ∈ along touchedKeys (earlier ++ call :: later) := by
        rw [along_append]
        exact mem_append_right _ (mem_append_left _ hkey)
      rcases known_step hcoherent hstep hwaits hknown with hbefore | hminted
      · exact (h.held key hbefore earlier call later rfl hkey).snoc (hrun.snoc hstep) hsame
      · exact absurd (h.touched_minted key hmem) (hfresh key hminted)
  · intro key hknown
    exact hgrows ((enqueued_step hcoherent hstep hwaits hknown).imp_left (h.enqueued key))
  · intro key hrecord
    obtain ⟨mid, _, _, hfirst, hsecond, -⟩ := handover_step h.custody hfresh hstep key.1
    rcases hsecond.inflight_recorded hrecord with hmid | hdelivered
    · rcases hfirst.inflight_recorded hmid with hold | hnone
      · exact hgrows (Or.inl (h.returned key hold))
      · cases hnone
    · exact hgrows (Or.inr (mem_deliveredIds.mp hdelivered))
  · intro session
    rcases captures_step hstep with hkeeps | ⟨action, -, hcapture, rfl⟩ |
      ⟨other, limit, hcall, -⟩
    · refine eq_nil_iff_forall_not_mem.mpr fun action haction => ?_
      have hbefore := (hkeeps.queues session).inflight action haction
      rw [h.noCapture] at hbefore
      cases hbefore
    · show ((b.legacy.enqueueAction action).queues session).captureInflight = []
      rw [queues_enqueueAction]
      by_cases hsession : session = action.sessionId
      · subst hsession
        rw [queues_setQueues]
        unfold ActionQueues.enqueueAction
        split <;> exact h.noCapture _
      · rw [queues_setQueues_of_ne _ hsession]
        exact h.noCapture session
    · rw [hcall] at hplain
      cases hplain

theorem tenure_run (hrun : Run BridgeStep (.new actionCapacity) tr b)
    (hfresh : (mintedIds tr).Nodup) (hplain : ∀ l ∈ tr, l.1.isPlainTake = false) :
    Tenure actionCapacity tr b := by
  refine hrun.forward_induction (P := fun tr b => (mintedIds tr).Nodup →
    (∀ l ∈ tr, l.1.isPlainTake = false) → Tenure actionCapacity tr b)
    (fun _ _ => tenure_new actionCapacity) ?_ hfresh hplain
  intro tr t l u hrun ih hstep hfresh hplain
  unfold mintedIds at hfresh
  rw [along_append, along_singleton, map_append, nodup_append'] at hfresh
  obtain ⟨hold, -, hdisjoint⟩ := hfresh
  refine tenure_step (ih hold fun m hm => hplain m (mem_append_left _ hm)) hrun
    (fun key hkey hmem => ?_) (hplain l (mem_append_right _ mem_cons_self)) hstep
  exact hdisjoint (mem_map_of_mem hmem) (mem_map_of_mem hkey)

/-- The calls before a call of a run mint nothing the call does. -/
theorem fresh_of_split {before after : List BridgeLabel}
    (hfresh : (mintedIds (before ++ l :: after)).Nodup) :
    (mintedIds before).Nodup ∧ ∀ key ∈ mintedKeys l, key ∉ along mintedKeys before := by
  have hparts : mintedIds (before ++ l :: after) =
      mintedIds before ++ ((mintedKeys l).map (·.2) ++ mintedIds after) := by
    unfold mintedIds
    rw [along_append, map_append]
    exact congrArg _ (map_append ..)
  rw [hparts, nodup_append'] at hfresh
  refine ⟨hfresh.1, fun key hkey hmem => hfresh.2.2 (mem_map_of_mem hmem) ?_⟩
  exact mem_append_left _ (mem_map_of_mem hkey)

theorem TakenBy.delivered {authorityRef : String} (h : TakenBy authorityRef key l) :
    key ∈ deliveredKeys l := by
  obtain ⟨limit, now, actions, rfl, hid⟩ := h
  exact mem_keysOf.mpr ⟨rfl, hid⟩

theorem takenBy_of_delivered (hplain : l.1.isPlainTake = false) (hkey : key ∈ deliveredKeys l) :
    ∃ authorityRef, TakenBy authorityRef key l := by
  unfold deliveredKeys at hkey
  split at hkey
  · cases hplain
  · obtain ⟨rfl, hid⟩ := mem_keysOf.mp hkey
    exact ⟨_, _, _, _, rfl, hid⟩
  · cases hkey

/-- An accepted completion is one of the current authority, of an action that it
holds in flight. -/
theorem completed_inflight (h : Tenure actionCapacity tr b) {authorityRef : String} {actionId : Uuid}
    {now : Timestamp}
    (hstep : BridgeStep b (.completeManagedSurfaceAction sessionId authorityRef actionId now,
      .completion .completed) b') :
    b.managedSurfaceActionAuthority sessionId = some authorityRef ∧
      (b.legacy.handover sessionId).record actionId = some .inflight := by
  obtain ⟨hanswer, -⟩ := Prod.ext_iff.mp hstep
  replace hanswer : BridgeAnswer.completion (b.completeManagedSurfaceAction sessionId authorityRef
    actionId now).1 = .completion .completed := hanswer
  have hresult := BridgeAnswer.completion.inj hanswer
  unfold completeManagedSurfaceAction claimAction at hresult
  dsimp only at hresult
  split_ifs at hresult with hcurrent
  refine ⟨not_not.mp hcurrent, ?_⟩
  rcases claimAction_cases actionId (fun hknown => h.custody.not_capture hknown)
    (h.custody.sound sessionId).recorded with ⟨hrecord, -⟩ | ⟨-, hnothing, -⟩
  · exact hrecord
  · cases hclaim : b.legacy.claimAction sessionId actionId with
    | mk claimed legacy =>
      rw [hclaim] at hresult hnothing
      rcases hnothing with hnone | hcapture
      · obtain rfl : claimed = none := hnone
        cases hresult
      · rw [h.noCapture] at hcapture
        cases hcapture

end

/-- **Rotation of the surface authority.**  In every run of bridge calls that mint
distinct ids and take public actions only for a managed surface, an action goes to
the authority that was current from its enqueueing on, is completed by the authority
that took it with no rotation in between, and a rotation leaves nothing behind. -/
theorem surface_rotation (actionCapacity : Nat) (tr : List BridgeLabel) (b : LiveBridge)
    (hrun : Run BridgeStep (.new actionCapacity) tr b) (hfresh : (mintedIds tr).Nodup)
    (hplain : ∀ l ∈ tr, l.1.isPlainTake = false) : SurfaceRotation actionCapacity tr := by
  -- the tenure before any call of the run
  have htenure : ∀ before l after a, tr = before ++ l :: after →
      Run BridgeStep (.new actionCapacity) before a →
      Tenure actionCapacity before a ∧ ∀ key ∈ mintedKeys l, key ∉ along mintedKeys before := by
    rintro before l after a rfl ha
    obtain ⟨hold, hnew⟩ := fresh_of_split hfresh
    exact ⟨tenure_run ha hold fun m hm => hplain m (mem_append_left _ hm), hnew⟩
  refine ⟨?_, ?_, ?_⟩
  · intro before take after hparts authorityRef key htaken
    obtain ⟨a, a', ha, hstep, -⟩ := Run.step_of_split (hparts ▸ hrun)
    obtain ⟨h, hnew⟩ := htenure before take after a hparts ha
    obtain ⟨enqueued, heffect, -, -⟩ := bridgeEffect_step h.custody.coherent hstep
      (h.custody.not_waits hnew)
    have hstate : a.legacy.authority.stateOf key ≠ none := by
      rw [(heffect.delivered_pending key htaken.delivered).2]
      exact Option.some_ne_none _
    refine ⟨h.enqueued key hstate, fun earlier enqueue between hbefore hkey => ?_⟩
    have hheld := h.held key (Or.inl hstate) earlier enqueue between hbefore
      (mem_append_left _ hkey)
    rwa [(authority_of_taken hstep htaken).1] at hheld
  · intro before complete after hparts sessionId authorityRef actionId now hcomplete
    obtain ⟨a, a', ha, hstep, -⟩ := Run.step_of_split (hparts ▸ hrun)
    obtain ⟨h, -⟩ := htenure before complete after a hparts ha
    rw [hcomplete] at hstep
    obtain ⟨hauthority, hrecord⟩ := completed_inflight h hstep
    have hknown : Known a (sessionId, actionId) := by
      refine .inl ?_
      rw [(handed_eq_some.mp hrecord).1]
      exact Option.some_ne_none _
    have htaker : ∀ earlier take between takerRef, before = earlier ++ take :: between →
        TakenBy takerRef (sessionId, actionId) take → takerRef = authorityRef ∧
          HeldThroughout actionCapacity sessionId (some authorityRef) earlier
            (take :: between) := by
      intro earlier take between takerRef hbefore htaken
      have hheld := h.held _ hknown earlier take between hbefore
        (mem_append_right _ htaken.delivered)
      rw [hauthority] at hheld
      refine ⟨?_, hheld⟩
      obtain ⟨u, u', hu, htake, -⟩ := Run.step_of_split (hbefore ▸ ha)
      have hafter : u'.managedSurfaceActionAuthority sessionId = some authorityRef :=
        hheld [take] between u' rfl (hu.snoc htake)
      rw [(authority_of_taken htake htaken).2] at hafter
      exact Option.some.inj hafter
    refine ⟨?_, htaker⟩
    -- the action was returned by some take, which was the surface's
    obtain ⟨take, htake, hkey⟩ := mem_flatMap.mp (h.returned (sessionId, actionId) hrecord)
    obtain ⟨earlier, between, hbefore⟩ := append_of_mem htake
    have hmem : take ∈ tr := by
      rw [hparts]
      exact mem_append_left _ htake
    obtain ⟨takerRef, htaken⟩ := takenBy_of_delivered (hplain take hmem) hkey
    obtain ⟨rfl, -⟩ := htaker earlier take between takerRef hbefore htaken
    exact ⟨earlier, take, between, hbefore, htaken⟩
  · intro before l after a a' sessionId hparts ha hstep hrotates
    exact retired_of_rotation hstep hrotates

/-- An action is queued and completed under one authority, and another one retired. -/
def rotationRun : List BridgeCall :=
  [.ensureManagedSurfaceActionAuthority 1 "surface:1", .enqueueAction sampleAction,
    .takeManagedSurfaceActions 1 "surface:1" 8 0,
    .completeManagedSurfaceAction 1 "surface:1" 5 0,
    .enqueueAction { sampleAction with id := 6 },
    .takeManagedSurfaceActions 1 "surface:2" 8 0,
    .clearManagedSurfaceActionAuthority 1]

theorem surface_rotation_rotationRun :
    SurfaceRotation 8 ((new 8).calls rotationRun).1 :=
  surface_rotation 8 _ _ (run_bridgeCalls _ rotationRun) (by decide +kernel) (by decide +kernel)

end Localview
