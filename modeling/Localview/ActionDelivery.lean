import Localview.ActionLifecycle
import Localview.LiveBridge
import Localview.StateRun

/-! # Delivery of public actions

What a run of bridge calls hands out.  An action id is minted once, by the call
that creates the action; after that it can reach a public queue by that call or by
the hand-off of its envelope, and nothing that was handed out or reported cancelled
waits again, as long as the hand-off does not bring it back
(`Ledger`, `ledger_step`).

The hand-off of a directly bound action cannot: its envelope is consumed.  For an
action queued by `enqueue_canonical_action` the envelope stays behind, and only
the queue's memory of the id stands against a second delivery; a discard, or
enough later results, make the queue forget it.
-/
namespace Localview
open StateRun List Function LiveBridge

abbrev BridgeLabel := BridgeCall × BridgeAnswer

section
variable (b : LiveBridge) (l : BridgeLabel) (b' : LiveBridge)

/-- One call and its answer. -/
def BridgeStep : Prop :=
  b.run l.1 = (l.2, b')

def BridgeAction.key (action : BridgeAction) : ActionKey := (action.sessionId, action.id)

/-- The actions a call mints. -/
def mintedKeys : BridgeLabel → List ActionKey
  | (.enqueueAction action, _) | (.enqueueCanonicalAction action _ _, _)
  | (.bindDirectCanonicalAction action _ _, _) => [action.key]
  | _ => []

/-- The actions a call queues with a canonical envelope. -/
def canonicalKeys : BridgeLabel → List ActionKey
  | (.enqueueCanonicalAction action _ _, _) => [action.key]
  | _ => []

def deliveredKeys : BridgeLabel → List ActionKey
  | (.takePublicActions sessionId _ _, .taken actions)
  | (.takeManagedSurfaceActions sessionId _ _ _, .taken actions) => keysOf sessionId actions
  | _ => []

def reportedCancelled : BridgeLabel → List ActionKey
  | (.requestActionCancellation sessionId _ _, .cancellation outcome) =>
      cancelledKeys sessionId outcome
  | (.acknowledgeActionCancellation sessionId actionId _, .acknowledged cancelled) =>
      acknowledgedKeys (sessionId, actionId) cancelled
  | _ => []

/-- What a run's labels say, one after the other. -/
def along (f : BridgeLabel → List ActionKey) (tr : List BridgeLabel) : List ActionKey :=
  tr.flatMap f

@[simp] theorem along_append (f : BridgeLabel → List ActionKey) (tr tr' : List BridgeLabel) :
    along f (tr ++ tr') = along f tr ++ along f tr' := flatMap_append

@[simp] theorem along_singleton (f : BridgeLabel → List ActionKey) (l : BridgeLabel) :
    along f [l] = f l := flatMap_singleton ..

/-! ## One call -/

def LiveBridge.AdmitsHandOff (b : LiveBridge) (queued : CanonicalQueuedAction) : Prop :=
  queued.action.id = queued.envelope.transportActionId ∧
    queued.action.sessionId = queued.envelope.sessionId ∧
    b.actionEnvelopes queued.action.id = some queued.envelope ∧
    b.checkDispatchIncarnations queued = .ok () ∧
    b.legacy.admitsPrebound queued.action

/-- Where an action that a call puts in a public queue comes from. -/
inductive Enqueues (key : ActionKey) : Prop
  | minted (h : key ∈ mintedKeys l)
  | handedOff (queued : CanonicalQueuedAction)
      (hcall : l.1 = .enqueueBoundCanonicalActionForDispatch queued)
      (hkey : key = queued.action.key) (hadmits : b.AdmitsHandOff queued)
      (hconsumed : b'.actionEnvelopes key.2 = none)

/-- All that one call does to the actions of the bridge. -/
structure BridgeEffect (enqueued : Option ActionKey) : Prop where
  effect : Effect b.legacy b'.legacy enqueued (deliveredKeys l) (reportedCancelled l)
  enqueues : ∀ key, enqueued = some key → ¬ Waits b.legacy key ∧ Enqueues b l b' key
  envelopes : ∀ actionId envelope, b'.actionEnvelopes actionId = some envelope →
    b.actionEnvelopes actionId = some envelope ∨
      ((envelope.sessionId, actionId) ∈ mintedKeys l ∧
        ((envelope.sessionId, actionId) ∈ canonicalKeys l ∨ enqueued = none))

end

section
variable {b b' : LiveBridge}

/-- A call that puts nothing into a queue and stores no envelope. -/
theorem BridgeEffect.of_effect {l : BridgeLabel}
    (h : Effect b.legacy b'.legacy none (deliveredKeys l) (reportedCancelled l))
    (henvelopes : ∀ actionId envelope, b'.actionEnvelopes actionId = some envelope →
      b.actionEnvelopes actionId = some envelope) : BridgeEffect b l b' none :=
  ⟨h, fun _ h => (by cases h), fun actionId envelope h => Or.inl (henvelopes actionId envelope h)⟩

theorem effect_retireExecutor (h : Coherent b.legacy) (sessionId : SessionId) :
    Effect b.legacy (b.retireExecutor sessionId).legacy none [] [] ∧
      ∀ actionId envelope, (b.retireExecutor sessionId).actionEnvelopes actionId = some envelope →
        b.actionEnvelopes actionId = some envelope := by
  refine ⟨effect_discardPublicActions h sessionId, fun actionId envelope henvelope => ?_⟩
  exact Option.filter_eq_some_iff.mp henvelope |>.1

theorem effect_ensureAuthority (h : Coherent b.legacy) (sessionId : SessionId)
    (authorityRef : String) :
    Effect b.legacy (b.ensureManagedSurfaceActionAuthority sessionId authorityRef).2.legacy none []
        [] ∧
      ∀ actionId envelope,
        (b.ensureManagedSurfaceActionAuthority sessionId authorityRef).2.actionEnvelopes actionId =
          some envelope → b.actionEnvelopes actionId = some envelope := by
  unfold ensureManagedSurfaceActionAuthority
  split_ifs
  · exact ⟨Effect.quiet h rfl rfl rfl, fun _ _ henvelope => henvelope⟩
  · exact effect_retireExecutor h sessionId

theorem waits_minted_fresh {action : BridgeAction} {key : ActionKey}
    (h : (if action.action.isInternalCaptureAction then none else some action.key) =
      some key) : key = action.key := by
  split_ifs at h
  exact (Option.some.inj h).symm

/-- The checks of a canonical admission leave the bridge as it is, or the envelope
is stored on top of `queued`. -/
theorem enqueueCanonicalAction_cases (action : BridgeAction) (envelopeId : Uuid)
    (metadata : ActionEnvelopeMetadata) :
    (∃ error, b.enqueueCanonicalAction action envelopeId metadata = (.error error, b)) ∨
      b.enqueueCanonicalAction action envelopeId metadata =
        (.ok ⟨action, envelopeFor action envelopeId metadata⟩,
          (b.enqueueAction action).insertEnvelope
            (envelopeFor action envelopeId metadata)) := by
  unfold enqueueCanonicalAction
  split
  · exact .inl ⟨_, rfl⟩
  · exact .inl ⟨_, rfl⟩
  · exact .inr rfl

theorem bindDirectCanonicalAction_cases (action : BridgeAction) (envelopeId : Uuid)
    (metadata : ActionEnvelopeMetadata) :
    (∃ error, b.bindDirectCanonicalAction action envelopeId metadata = (.error error, b)) ∨
      b.bindDirectCanonicalAction action envelopeId metadata =
        (.ok ⟨action, envelopeFor action envelopeId metadata⟩,
          b.insertEnvelope (envelopeFor action envelopeId metadata)) := by
  unfold bindDirectCanonicalAction
  split
  · exact .inl ⟨_, rfl⟩
  · exact .inl ⟨_, rfl⟩
  · exact .inr rfl

/-- An envelope found after one is stored was there before, or is the stored one. -/
theorem insertEnvelope_cases {stored envelope : CanonicalActionEnvelope} {actionId : Uuid}
    (h : (b.insertEnvelope stored).actionEnvelopes actionId = some envelope) :
    b.actionEnvelopes actionId = some envelope ∨
      (actionId = stored.transportActionId ∧ envelope = stored) := by
  replace h : update b.actionEnvelopes stored.transportActionId (some stored) actionId =
    some envelope := h
  by_cases hid : actionId = stored.transportActionId
  · rw [hid, update_self] at h
    exact .inr ⟨hid, (Option.some.inj h).symm⟩
  · rw [update_of_ne hid] at h
    exact .inl h

theorem removeEnvelope_some {actionId other : Uuid} {envelope : CanonicalActionEnvelope}
    (h : (b.removeEnvelope actionId).actionEnvelopes other = some envelope) :
    b.actionEnvelopes other = some envelope := by
  replace h : update b.actionEnvelopes actionId none other = some envelope := h
  by_cases hid : other = actionId
  · rw [hid, update_self] at h
    cases h
  · rwa [update_of_ne hid] at h

/-- The hand-off puts the action into the queue where every check passes, and else
at most consumes the envelope. -/
theorem handOff_cases (h : Coherent b.legacy) (queued : CanonicalQueuedAction) :
    let result := b.enqueueBoundCanonicalActionForDispatch queued
    (b.AdmitsHandOff queued ∧ result.1 = .ok () ∧
        Effect b.legacy result.2.legacy (some queued.action.key) [] [] ∧
        result.2.actionEnvelopes = (b.removeEnvelope queued.action.id).actionEnvelopes) ∨
      (¬ b.AdmitsHandOff queued ∧ (∃ error, result.1 = .error error) ∧
        result.2.legacy = b.legacy ∧
        (result.2.actionEnvelopes = b.actionEnvelopes ∨
          result.2.actionEnvelopes = (b.removeEnvelope queued.action.id).actionEnvelopes)) := by
  unfold enqueueBoundCanonicalActionForDispatch
  by_cases hcapture : queued.action.action.isInternalCaptureAction = true
  · rw [if_pos hcapture]
    refine .inr ⟨fun hadmits => ?_, ⟨_, rfl⟩, rfl, Or.inl rfl⟩
    rw [hadmits.2.2.2.2.1] at hcapture
    cases hcapture
  rw [if_neg hcapture]
  by_cases hidentity : queued.action.id ≠ queued.envelope.transportActionId ∨
      queued.action.sessionId ≠ queued.envelope.sessionId
  · rw [if_pos hidentity]
    refine .inr ⟨fun hadmits => ?_, ⟨_, rfl⟩, rfl, Or.inl rfl⟩
    rcases hidentity with hid | hsession
    · exact hid hadmits.1
    · exact hsession hadmits.2.1
  rw [if_neg hidentity]
  obtain ⟨hid, hsession⟩ := not_or.mp hidentity
  cases hstored : b.actionEnvelopes queued.action.id with
  | none =>
    refine .inr ⟨fun hadmits => ?_, ⟨_, rfl⟩, rfl, Or.inl rfl⟩
    rw [hadmits.2.2.1] at hstored
    cases hstored
  | some stored =>
    dsimp only
    by_cases hmatch : stored ≠ queued.envelope
    · rw [if_pos hmatch]
      refine .inr ⟨fun hadmits => ?_, ⟨_, rfl⟩, rfl, Or.inl rfl⟩
      exact hmatch (Option.some.inj (hstored.symm.trans hadmits.2.2.1))
    rw [if_neg hmatch]
    have hsame : stored = queued.envelope := not_not.mp hmatch
    -- from here on the envelope is consumed
    cases hcheck : (b.removeEnvelope queued.action.id).checkDispatchIncarnations queued with
    | error error =>
      refine .inr ⟨fun hadmits => ?_, ⟨_, rfl⟩, rfl, Or.inr rfl⟩
      cases (show b.checkDispatchIncarnations queued = .error error from hcheck).symm.trans
        hadmits.2.2.2.1
    | ok =>
      have hprebound := effect_enqueuePrebound h queued.action
      rcases hprebound with ⟨hadmits, haccepted, heffect⟩ | ⟨hrefused, hsame'⟩
      · refine .inl ⟨⟨not_not.mp hid, not_not.mp hsession, hsame ▸ hstored, hcheck, hadmits⟩, ?_⟩
        have hpair : b.legacy.enqueuePreboundPublicAction queued.action =
            (true, (b.legacy.enqueuePreboundPublicAction queued.action).2) :=
          Prod.ext haccepted rfl
        have hpair' : (b.removeEnvelope queued.action.id).legacy.enqueuePreboundPublicAction
            queued.action = _ := hpair
        dsimp only
        rw [hpair']
        exact ⟨rfl, heffect, rfl⟩
      · have hpair' : (b.removeEnvelope queued.action.id).legacy.enqueuePreboundPublicAction
            queued.action = _ := hsame'
        dsimp only
        rw [hpair']
        exact .inr ⟨fun hadmits => hrefused hadmits.2.2.2.2, ⟨_, rfl⟩, rfl, Or.inr rfl⟩

/-- **What one call does.**  The actions it mints do not wait yet. -/
theorem bridgeEffect_step (h : Coherent b.legacy) {l : BridgeLabel} (hstep : BridgeStep b l b')
    (hfresh : ∀ key ∈ mintedKeys l, ¬ Waits b.legacy key) :
    ∃ enqueued, BridgeEffect b l b' enqueued := by
  obtain ⟨call, answer⟩ := l
  unfold BridgeStep at hstep
  obtain ⟨hanswer, hnext⟩ := Prod.ext_iff.mp hstep
  dsimp only at hanswer hnext
  subst hanswer hnext
  have hquiet : Effect b.legacy b.legacy none [] [] := Effect.quiet h rfl rfl rfl
  cases call with
  | enqueueAction action =>
    have heffect := effect_enqueueAction h action (hfresh _ mem_cons_self)
    refine ⟨_, heffect, fun key hkey => ?_, fun _ _ henvelope => Or.inl henvelope⟩
    rw [waits_minted_fresh hkey]
    exact ⟨hfresh _ mem_cons_self, .minted mem_cons_self⟩
  | enqueueCanonicalAction action envelopeId metadata =>
    have hnot := hfresh action.key mem_cons_self
    simp only [LiveBridge.run]
    rcases enqueueCanonicalAction_cases (b := b) action envelopeId metadata with
      ⟨error, hrefused⟩ | hadmitted
    · rw [hrefused]
      exact ⟨none, .of_effect hquiet fun _ _ => id⟩
    · rw [hadmitted]
      refine ⟨_, effect_enqueueAction h action hnot, fun key hkey => ?_, ?_⟩
      · rw [waits_minted_fresh hkey]
        exact ⟨hnot, .minted mem_cons_self⟩
      · intro actionId envelope henvelope
        rcases insertEnvelope_cases henvelope with hbefore | ⟨rfl, rfl⟩
        · exact .inl hbefore
        · exact .inr ⟨mem_cons_self, Or.inl mem_cons_self⟩
  | bindDirectCanonicalAction action envelopeId metadata =>
    simp only [LiveBridge.run]
    rcases bindDirectCanonicalAction_cases (b := b) action envelopeId metadata with
      ⟨error, hrefused⟩ | hadmitted
    · rw [hrefused]
      exact ⟨none, .of_effect hquiet fun _ _ => id⟩
    · rw [hadmitted]
      refine ⟨none, hquiet, fun _ hnone => (by cases hnone), ?_⟩
      intro actionId envelope henvelope
      rcases insertEnvelope_cases henvelope with hbefore | ⟨rfl, rfl⟩
      · exact .inl hbefore
      · exact .inr ⟨mem_cons_self, Or.inr rfl⟩
  | discardBoundCanonicalAction actionId =>
    exact ⟨none, .of_effect hquiet fun _ _ henvelope => removeEnvelope_some henvelope⟩
  | enqueueBoundCanonicalActionForDispatch queued =>
    rcases handOff_cases h queued with ⟨hadmits, -, heffect, henvelopes⟩ |
      ⟨-, -, hlegacy, henvelopes⟩
    · refine ⟨some queued.action.key, heffect, fun key hkey => ?_, fun actionId envelope hmem => ?_⟩
      · cases hkey
        refine ⟨not_waits_of_not_duplicate hadmits.2.2.2.2.2.1,
          .handedOff queued rfl rfl hadmits ?_⟩
        show (b.enqueueBoundCanonicalActionForDispatch queued).2.actionEnvelopes queued.action.id =
          none
        rw [henvelopes]
        exact update_self ..
      · have hbefore := congrFun henvelopes actionId
        exact .inl (removeEnvelope_some (hbefore.symm.trans hmem))
    · refine ⟨none, .of_effect ?_ fun actionId envelope hmem => ?_⟩
      · show Effect b.legacy (b.enqueueBoundCanonicalActionForDispatch queued).2.legacy none [] []
        rw [hlegacy]
        exact hquiet
      · replace hmem : (b.enqueueBoundCanonicalActionForDispatch queued).2.actionEnvelopes
          actionId = some envelope := hmem
        rcases henvelopes with hsame | hremoved
        · rwa [hsame] at hmem
        · rw [hremoved] at hmem
          exact removeEnvelope_some hmem
  | takePublicActions sessionId limit now =>
    exact ⟨none, .of_effect (effect_takePublicActions h sessionId limit now)
      fun _ _ => id⟩
  | takeManagedSurfaceActions sessionId authorityRef limit now =>
    obtain ⟨hensure, henvelopes⟩ := effect_ensureAuthority h sessionId authorityRef
    exact ⟨none, .of_effect (hensure.after
      (effect_takePublicActions hensure.coherent sessionId limit now)) henvelopes⟩
  | takeInternalCaptureActions sessionId limit =>
    exact ⟨none, .of_effect (Effect.setQueues h rfl) fun _ _ => id⟩
  | ensureManagedSurfaceActionAuthority sessionId authorityRef =>
    obtain ⟨hensure, henvelopes⟩ := effect_ensureAuthority h sessionId authorityRef
    exact ⟨none, .of_effect hensure henvelopes⟩
  | clearManagedSurfaceActionAuthority sessionId =>
    obtain ⟨hretire, henvelopes⟩ := effect_retireExecutor h sessionId
    simp only [LiveBridge.run]
    unfold clearManagedSurfaceActionAuthority
    split_ifs
    · exact ⟨none, .of_effect hretire henvelopes⟩
    · exact ⟨none, .of_effect hquiet fun _ _ => id⟩
  | claimAction sessionId actionId =>
    exact ⟨none, .of_effect (effect_claimAction h sessionId actionId)
      fun _ _ => id⟩
  | completeAction origin resultId now =>
    exact ⟨none, .of_effect (effect_completeAction h origin resultId now)
      fun _ _ => id⟩
  | completeManagedSurfaceAction sessionId authorityRef resultId now =>
    have hclaim := effect_claimAction h sessionId resultId
    simp only [LiveBridge.run]
    unfold completeManagedSurfaceAction LiveBridge.claimAction
    dsimp only
    split_ifs
    · exact ⟨none, .of_effect hquiet fun _ _ => id⟩
    · cases hclaimed : b.legacy.claimAction sessionId resultId with
      | mk claimed legacy =>
        rw [hclaimed] at hclaim
        cases claimed with
        | none => exact ⟨none, .of_effect hclaim fun _ _ => id⟩
        | some action =>
          exact ⟨none, .of_effect (hclaim.after (effect_completeAction hclaim.coherent _ _ _))
            fun _ _ => id⟩
  | requestActionCancellation sessionId actionId now =>
    exact ⟨none, .of_effect (effect_requestActionCancellation h sessionId actionId now)
      fun _ _ => id⟩
  | acknowledgeActionCancellation sessionId actionId now =>
    exact ⟨none, .of_effect (effect_acknowledgeActionCancellation h sessionId actionId now)
      fun _ _ => id⟩
  | observe eventCapacity sessionId c =>
    exact ⟨none, .of_effect hquiet fun _ _ => id⟩

end

/-! ## Runs -/

/-- What a run so far says of the bridge it has led to.  A stored envelope belongs
to an action that was queued with it, or to one nothing has happened to yet. -/
structure Ledger (tr : List BridgeLabel) (b : LiveBridge) : Prop where
  coherent : Coherent b.legacy
  known_minted : ∀ key, b.legacy.authority.stateOf key ≠ none → key ∈ along mintedKeys tr
  delivered_minted : ∀ key ∈ along deliveredKeys tr, key ∈ along mintedKeys tr
  cancelled_minted : ∀ key ∈ along reportedCancelled tr, key ∈ along mintedKeys tr
  waits_undelivered : ∀ key, Waits b.legacy key → key ∉ along deliveredKeys tr
  waits_cancelled : ∀ key, Waits b.legacy key → key ∈ along reportedCancelled tr →
    b.legacy.authority.stateOf key = some .cancelled
  bound : ∀ actionId envelope, b.actionEnvelopes actionId = some envelope →
    (envelope.sessionId, actionId) ∈ along mintedKeys tr ∧
      ((envelope.sessionId, actionId) ∈ along canonicalKeys tr ∨
        (b.legacy.authority.stateOf (envelope.sessionId, actionId) = none ∧
          (envelope.sessionId, actionId) ∉ along deliveredKeys tr ∧
          (envelope.sessionId, actionId) ∉ along reportedCancelled tr))
  delivered_nodup : (along deliveredKeys tr).Nodup
  never_after : ∀ earlier later, tr = earlier ++ later →
    ∀ key ∈ along reportedCancelled earlier, key ∉ along deliveredKeys later

theorem ledger_new (actionCapacity : Nat) : Ledger [] (.new actionCapacity) where
  coherent := coherent_new actionCapacity
  known_minted := fun _ h => absurd rfl h
  delivered_minted := forall_mem_nil _
  cancelled_minted := forall_mem_nil _
  waits_undelivered := fun _ _ => not_mem_nil
  waits_cancelled := fun _ _ h => by cases h
  bound := fun _ _ h => by cases h
  delivered_nodup := nodup_nil
  never_after := by
    intro earlier later h key hkey
    obtain ⟨rfl, rfl⟩ := append_eq_nil_iff.mp h.symm
    cases hkey

theorem known_of_waits {b : CancellableBridge} (h : Coherent b) {key : ActionKey}
    (hwait : Waits b key) : b.authority.stateOf key ≠ none := by
  intro hnone
  rcases h.waiting key hwait with hs | hs
  · rw [hnone] at hs
    cases hs
  · rw [hnone] at hs
    cases hs

/-- The hand-off does not bring an action back: where the action was queued by
`enqueue_canonical_action` and has been handed out or reported cancelled since,
some check of the hand-off fails. -/
def NoReentry (tr : List BridgeLabel) (b : LiveBridge) (l : BridgeLabel) : Prop :=
  ∀ queued, l.1 = .enqueueBoundCanonicalActionForDispatch queued →
    queued.action.key ∈ along canonicalKeys tr →
    (queued.action.key ∈ along deliveredKeys tr ∨
      queued.action.key ∈ along reportedCancelled tr) → ¬ b.AdmitsHandOff queued

section
variable {tr : List BridgeLabel} {l : BridgeLabel} {b b' : LiveBridge}
  {enqueued : Option ActionKey}

/-- What a call puts into a queue has neither been handed out nor reported
cancelled. -/
theorem Ledger.enqueued_new (h : Ledger tr b) (hfresh : ∀ key ∈ mintedKeys l,
    key ∉ along mintedKeys tr) (hreentry : NoReentry tr b l) {key : ActionKey}
    (henqueues : Enqueues b l b' key) :
    key ∈ along mintedKeys (tr ++ [l]) ∧ key ∉ along deliveredKeys tr ∧
      key ∉ along reportedCancelled tr := by
  rw [along_append, along_singleton, mem_append]
  cases henqueues with
  | minted hminted =>
    have hnew := hfresh key hminted
    exact ⟨Or.inr hminted, fun hmem => hnew (h.delivered_minted key hmem),
      fun hmem => hnew (h.cancelled_minted key hmem)⟩
  | handedOff queued hcall hkey hadmits hconsumed =>
    subst hkey
    obtain ⟨hminted, hbound⟩ := h.bound _ _ hadmits.2.2.1
    rw [← hadmits.2.1] at hminted hbound
    refine ⟨Or.inl hminted, ?_⟩
    rcases hbound with hcanonical | ⟨-, hundelivered, huncancelled⟩
    · -- an action queued with its envelope: the condition on the run
      have hneither : ¬ (queued.action.key ∈ along deliveredKeys tr ∨
          queued.action.key ∈ along reportedCancelled tr) :=
        fun hgone => hreentry queued hcall hcanonical hgone hadmits
      exact not_or.mp hneither
    · exact ⟨hundelivered, huncancelled⟩

/-- **Step.**  A call that mints fresh actions only, and whose hand-off brings
nothing back, keeps the ledger. -/
theorem ledger_step (h : Ledger tr b) (hfresh : ∀ key ∈ mintedKeys l, key ∉ along mintedKeys tr)
    (hreentry : NoReentry tr b l) (hstep : BridgeStep b l b') : Ledger (tr ++ [l]) b' := by
  have hunseen : ∀ key ∈ mintedKeys l, b.legacy.authority.stateOf key = none := by
    intro key hkey
    by_contra hknown
    exact hfresh key hkey (h.known_minted key hknown)
  obtain ⟨enqueued, heffect, henqueues, henvelopes⟩ := bridgeEffect_step h.coherent hstep
    fun key hkey hwait => known_of_waits h.coherent hwait (hunseen key hkey)
  have hdelivered : ∀ key ∈ deliveredKeys l, Waits b.legacy key := fun key hkey =>
    (heffect.delivered_pending key hkey).1
  have hdeliveredMinted : ∀ key ∈ deliveredKeys l, key ∈ along mintedKeys tr := fun key hkey =>
    h.known_minted key (known_of_waits h.coherent (hdelivered key hkey))
  have hcancelledMinted : ∀ key ∈ reportedCancelled l, key ∈ along mintedKeys tr := fun key hkey =>
    h.known_minted key (heffect.cancelled_known key hkey).1
  have hgrows : ∀ {f : BridgeLabel → List ActionKey} {key}, key ∈ along f tr →
      key ∈ along f (tr ++ [l]) := by
    intro f key hkey
    rw [along_append]
    exact mem_append_left _ hkey
  have hsplit : ∀ {f : BridgeLabel → List ActionKey} {key}, key ∈ along f (tr ++ [l]) →
      key ∈ along f tr ∨ key ∈ f l := by
    intro f key hkey
    rw [along_append, along_singleton] at hkey
    exact mem_append.mp hkey
  constructor
  · exact heffect.coherent
  · intro key hkey
    rcases heffect.known key hkey with henq | hknown
    · exact (h.enqueued_new hfresh hreentry (henqueues key henq).2).1
    · exact hgrows (h.known_minted key hknown)
  · intro key hkey
    rcases hsplit hkey with hkey | hkey
    · exact hgrows (h.delivered_minted key hkey)
    · exact hgrows (hdeliveredMinted key hkey)
  · intro key hkey
    rcases hsplit hkey with hkey | hkey
    · exact hgrows (h.cancelled_minted key hkey)
    · exact hgrows (hcancelledMinted key hkey)
  · intro key hwait hmem
    rcases heffect.waiting key hwait with henq | ⟨hbefore, hnot, -⟩
    · rcases hsplit hmem with hmem | hmem
      · exact (h.enqueued_new hfresh hreentry (henqueues key henq).2).2.1 hmem
      · exact (henqueues key henq).1 (hdelivered key hmem)
    · rcases hsplit hmem with hmem | hmem
      · exact h.waits_undelivered key hbefore hmem
      · exact hnot hmem
  · intro key hwait hmem
    rcases hsplit hmem with hmem | hmem
    · rcases heffect.waiting key hwait with henq | ⟨hbefore, -, hstate⟩
      · exact absurd hmem (h.enqueued_new hfresh hreentry (henqueues key henq).2).2.2
      · rcases hstate with hsame | hcancelled
        · exact hsame.trans (h.waits_cancelled key hbefore hmem)
        · exact hcancelled
    · exact (heffect.cancelled_known key hmem).2 hwait
  · intro actionId envelope henvelope
    rcases henvelopes actionId envelope henvelope with hbefore | ⟨hminted, hnew⟩
    · obtain ⟨hminted, hbound⟩ := h.bound actionId envelope hbefore
      refine ⟨hgrows hminted, ?_⟩
      rcases hbound with hcanonical | ⟨hunknown, hundelivered, huncancelled⟩
      · exact .inl (hgrows hcanonical)
      · refine .inr ⟨?_, fun hmem => ?_, fun hmem => ?_⟩
        · -- an entry could only come with the action's being queued
          by_contra hknown
          rcases heffect.known _ hknown with henq | hknown
          · cases (henqueues _ henq).2 with
            | minted hagain => exact hfresh _ hagain hminted
            | handedOff queued hcall hkey hadmits hconsumed =>
              rw [henvelope] at hconsumed
              cases hconsumed
          · exact hknown hunknown
        · rcases hsplit hmem with hmem | hmem
          · exact hundelivered hmem
          · exact known_of_waits h.coherent (hdelivered _ hmem) hunknown
        · rcases hsplit hmem with hmem | hmem
          · exact huncancelled hmem
          · exact (heffect.cancelled_known _ hmem).1 hunknown
    · refine ⟨?_, ?_⟩
      · rw [along_append, along_singleton]
        exact mem_append_right _ hminted
      · rcases hnew with hcanonical | hnone
        · left
          rw [along_append, along_singleton]
          exact mem_append_right _ hcanonical
        · refine .inr ⟨?_, fun hmem => ?_, fun hmem => ?_⟩
          · by_contra hknown
            rcases heffect.known _ hknown with henq | hknown
            · rw [hnone] at henq
              cases henq
            · exact hknown (hunseen _ hminted)
          · rcases hsplit hmem with hmem | hmem
            · exact hfresh _ hminted (h.delivered_minted _ hmem)
            · exact hfresh _ hminted (hdeliveredMinted _ hmem)
          · rcases hsplit hmem with hmem | hmem
            · exact hfresh _ hminted (h.cancelled_minted _ hmem)
            · exact hfresh _ hminted (hcancelledMinted _ hmem)
  · rw [along_append, along_singleton, nodup_append']
    refine ⟨h.delivered_nodup, heffect.delivered_nodup, fun key hold hnew => ?_⟩
    exact h.waits_undelivered key (hdelivered key hnew) hold
  · intro earlier later hparts key hkey hmem
    rcases eq_nil_or_concat later with rfl | ⟨later, last, rfl⟩
    · cases hmem
    · rw [concat_eq_append, ← append_assoc] at hparts
      obtain ⟨rfl, hlast⟩ := append_inj' hparts rfl
      obtain rfl := singleton_inj.mp hlast
      rw [concat_eq_append, along_append, along_singleton, mem_append] at hmem
      rcases hmem with hmem | hmem
      · exact h.never_after earlier later rfl key hkey hmem
      · -- the action still waits, as a cancelled one, and those are not handed out
        have hcancelled := h.waits_cancelled key (hdelivered key hmem)
          (by rw [along_append]; exact mem_append_left _ hkey)
        rw [(heffect.delivered_pending key hmem).2] at hcancelled
        cases hcancelled

end

/-- The ids of the actions a run mints. -/
def mintedIds (tr : List BridgeLabel) : List Uuid := (along mintedKeys tr).map (·.2)

/-- The ids a run's takes return, with repetition. -/
def returnedIds (tr : List BridgeLabel) : List Uuid := (along deliveredKeys tr).map (·.2)

/-- No step of the run brings an action back. -/
def ReentryFree (actionCapacity : Nat) (tr : List BridgeLabel) : Prop :=
  ∀ earlier l later b, tr = earlier ++ l :: later →
    Run BridgeStep (.new actionCapacity) earlier b → NoReentry earlier b l

section
variable {actionCapacity : Nat} {tr : List BridgeLabel} {b : LiveBridge}

theorem ledger_run (hrun : Run BridgeStep (.new actionCapacity) tr b)
    (hfresh : (mintedIds tr).Nodup) (hreentry : ReentryFree actionCapacity tr) : Ledger tr b := by
  refine hrun.forward_induction
    (P := fun tr b => (mintedIds tr).Nodup → ReentryFree actionCapacity tr → Ledger tr b)
    (fun _ _ => ledger_new actionCapacity) ?_ hfresh hreentry
  intro tr t l u hbefore ih hstep hfresh hreentry
  unfold mintedIds at hfresh
  rw [along_append, along_singleton, map_append, nodup_append'] at hfresh
  obtain ⟨hold, -, hdisjoint⟩ := hfresh
  have hreentry' : ReentryFree actionCapacity tr := by
    intro earlier m later b hparts
    refine hreentry earlier m (later ++ [l]) b ?_
    rw [hparts, append_assoc, cons_append]
  refine ledger_step (ih hold hreentry') (fun key hkey hmem => ?_)
    (hreentry tr l [] t rfl hbefore) hstep
  exact hdisjoint (mem_map_of_mem hmem) (mem_map_of_mem hkey)

/-- Two minted actions of one id are one action. -/
theorem key_unique (hfresh : (mintedIds tr).Nodup) {key key' : ActionKey}
    (h : key ∈ along mintedKeys tr) (h' : key' ∈ along mintedKeys tr) (hid : key.2 = key'.2) :
    key = key' :=
  inj_on_of_nodup_map hfresh h h' hid

end

/-- **At most once, and never after a cancellation.**  In a run of bridge calls
that mint distinct ids and whose hand-offs bring nothing back, every action id is
returned at most once, and none after a call has reported it cancelled. -/
theorem public_actions_delivered_once (actionCapacity : Nat) (tr : List BridgeLabel)
    (b : LiveBridge) (hrun : Run BridgeStep (.new actionCapacity) tr b)
    (hfresh : (mintedIds tr).Nodup) (hreentry : ReentryFree actionCapacity tr) :
    (returnedIds tr).Nodup ∧
      ∀ earlier l later, tr = earlier ++ l :: later →
        ∀ key ∈ reportedCancelled l, key.2 ∉ returnedIds later := by
  have hledger := ledger_run hrun hfresh hreentry
  refine ⟨?_, ?_⟩
  · refine List.Nodup.map_on (fun key hkey key' hkey' hid => ?_) hledger.delivered_nodup
    exact key_unique hfresh (hledger.delivered_minted key hkey)
      (hledger.delivered_minted key' hkey') hid
  · intro earlier l later hparts key hkey hreturned
    obtain ⟨key', hkey', hid⟩ := mem_map.mp hreturned
    have hcancelled : key ∈ along reportedCancelled (earlier ++ [l]) := by
      rw [along_append, along_singleton]
      exact mem_append_right _ hkey
    have hparts' : tr = (earlier ++ [l]) ++ later := by
      rw [hparts, append_assoc, singleton_append]
    have hsame : key' = key := by
      refine key_unique hfresh (hledger.delivered_minted key' ?_)
        (hledger.cancelled_minted key ?_) hid
      · rw [hparts', along_append]
        exact mem_append_right _ hkey'
      · rw [hparts', along_append]
        exact mem_append_left _ hcancelled
    rw [hsame] at hkey'
    exact hledger.never_after _ later hparts' key hcancelled hkey'

/-! ## Two runs -/

def LiveBridge.calls (b : LiveBridge) : List BridgeCall → List BridgeLabel × LiveBridge
  | [] => ([], b)
  | c :: cs =>
      let (labels, last) := (b.run c).2.calls cs
      ((c, (b.run c).1) :: labels, last)

theorem run_bridgeCalls (b : LiveBridge) (cs : List BridgeCall) :
    Run BridgeStep b (b.calls cs).1 (b.calls cs).2 := by
  induction cs generalizing b with
  | nil => exact Run.nil b
  | cons c cs ih => exact Run.cons rfl (ih _)

def sampleAction : BridgeAction :=
  { id := 5, sessionId := 1, reference := some "button:save", action := .click, createdAt := 0 }

def sampleMetadata : ActionEnvelopeMetadata :=
  { decisionPrincipalRef := ⟨"principal:operator"⟩, actingPrincipalRef := ⟨"principal:daemon"⟩
    authorizationRevision := "authorization:1", preconditionSnapshotCutRef := "cut:1"
    providerIncarnationRef := ⟨"provider:1"⟩, targetIncarnationRef := ⟨"target:1"⟩
    riskClass := .unknown, idempotencyClass := .unknown
    expectedPostconditionContractRefs := ["contract:saved"] }

def sampleQueued : CanonicalQueuedAction :=
  ⟨sampleAction, envelopeFor sampleAction 6 sampleMetadata⟩

def sampleObserve : BridgeCall :=
  .observe 32 1 (.bindProviderObservation
    { generation := 1, providerIncarnationRef := ⟨"provider:1"⟩
      targetIncarnationRef := ⟨"target:1"⟩, initialContinuity := .continuous
      sequenceBaseline := none })

/-- An action bound directly, handed off and taken. -/
def directRun : List BridgeCall :=
  [sampleObserve, .bindDirectCanonicalAction sampleAction 6 sampleMetadata,
    .enqueueBoundCanonicalActionForDispatch sampleQueued, .takePublicActions 1 8 0,
    .takePublicActions 1 8 0]

/-- An action queued with its envelope is taken and its cancellation acknowledged;
then its envelope is handed off. -/
def reentryRun : List BridgeCall :=
  [sampleObserve, .enqueueCanonicalAction sampleAction 6 sampleMetadata,
    .takePublicActions 1 8 0, .requestActionCancellation 1 5 0,
    .acknowledgeActionCancellation 1 5 0,
    .enqueueBoundCanonicalActionForDispatch sampleQueued, .takePublicActions 1 8 0]

theorem public_actions_delivered_once_directRun : let tr := ((LiveBridge.new 8).calls directRun).1
    (returnedIds tr).Nodup ∧
      ∀ earlier l later, tr = earlier ++ l :: later →
        ∀ key ∈ reportedCancelled l, key.2 ∉ returnedIds later := by
  refine public_actions_delivered_once 8 _ _ (run_bridgeCalls _ directRun) (by decide +kernel) ?_
  intro earlier l later b hparts _ queued _ hcanonical
  -- nothing is queued with its envelope
  have hnone : along canonicalKeys ((LiveBridge.new 8).calls directRun).1 = [] := by
    decide +kernel
  rw [hparts, along_append] at hnone
  rw [(append_eq_nil_iff.mp hnone).1] at hcanonical
  cases hcanonical

/-- The acknowledged action is returned a second time. -/
theorem cancelled_action_reenters : let tr := ((LiveBridge.new 8).calls reentryRun).1
    Run BridgeStep (.new 8) tr ((LiveBridge.new 8).calls reentryRun).2 ∧ (mintedIds tr).Nodup ∧
      returnedIds tr = [5, 5] ∧
      ∃ earlier l later, tr = earlier ++ l :: later ∧
        ((1 : SessionId), (5 : Uuid)) ∈ reportedCancelled l ∧ (5 : Uuid) ∈ returnedIds later := by
  refine ⟨run_bridgeCalls _ _, by decide +kernel, by decide +kernel,
    ((LiveBridge.new 8).calls reentryRun).1.take 4, _, _, rfl, ?_, ?_⟩
  · decide +kernel
  · decide +kernel

end Localview
