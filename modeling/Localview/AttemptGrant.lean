import Localview.DispatchAttempt

/-! # The grant of one attempt

An attempt draws a fresh identifier for its capability and one for its permit,
and what carries them is move-only: no other task presents it.  Other attempts on
the same action may run, with tokens of their own; the journal refuses those as
long as the live grant is this attempt's.

While that grant is live the action stays at PREPARED.  A linearization needs the
grant, and a postcondition receipt needs an observation, which the journal
refuses until the grant is gone.
-/
namespace Localview
open EarlyReturn StateRun AsyncState List ConsequentialJournal

/-- The action of an attempt and the identifiers it draws. -/
structure AttemptTokens where
  (actionId capabilityRef permitRef : Uuid)

def presentsAttempt (t : AttemptTokens) : JournalCall → Bool
  | .beginDispatch capability _ => capability.capabilityRef == t.capabilityRef
  | .abandonDispatchExecution permit => permit.permitRef == t.permitRef
  | .recordDispatchLinearized permit _ _ => permit.permitRef == t.permitRef
  | _ => false

def recordsReceipt (a : Uuid) : JournalCall → Bool
  | .recordActionPostconditionReceipt draft _ => draft.actionId == a
  | _ => false

/-- The journal holds a dispatch grant of the action. -/
def DispatchLive (a : Uuid) (j : ConsequentialJournal) : Prop :=
  (j.liveDispatchPrepared a).isSome ∨ (j.liveDispatchExecution a).isSome

/-- The other tasks move the journal by its calls.  They present none of the
attempt's tokens, and a receipt they record while a dispatch of the action is
live rests on an observation they began meanwhile. -/
def OthersApart (codec : EntryCodec) (t : AttemptTokens) (sh : Shared DispatchWorld) : Prop :=
  ∀ n w, ∃ tr, Run (CallStep codec) w.journal tr (sh.others n w).journal ∧
    (∀ l ∈ tr, presentsAttempt t l.1 = false) ∧
    (DispatchLive t.actionId w.journal →
      ∀ l ∈ tr.takeWhile fun l => !mintsObservation t.actionId l,
        recordsReceipt t.actionId l.1 = false)

/-- The action stands at PREPARED and its one dispatch grant is the attempt's. -/
structure OwnGrant (t : AttemptTokens) (j : ConsequentialJournal) : Prop where
  state : recoveryStateFor j.entries t.actionId = some .dispatchPrepared
  live : DispatchLive t.actionId j
  prepared : ∀ grant, j.liveDispatchPrepared t.actionId = some grant →
    grant.capabilityRef = t.capabilityRef
  execution : ∀ grant, j.liveDispatchExecution t.actionId = some grant →
    grant.permitRef = t.permitRef

section
variable {codec : EntryCodec} {j j' : ConsequentialJournal} {a : Uuid} {t : AttemptTokens}

/-- A capability that is not the live one is refused. -/
theorem beginDispatch_foreign {capability : DispatchPreparedCapability} (permitRef : Uuid)
    (h : ∀ grant, j.liveDispatchPrepared capability.actionId = some grant →
      grant.capabilityRef ≠ capability.capabilityRef) :
    (j.beginDispatch capability permitRef).2 = j := by
  unfold beginDispatch
  simp only
  split
  · rfl
  split
  · rfl
  · rename_i grant hgrant
    rw [if_pos (.inl (h grant hgrant))]

/-- A permit that is not the live one is refused. -/
theorem consumeDispatchPermit_foreign {permit : DispatchExecutionPermit}
    (h : ∀ grant, j.liveDispatchExecution permit.actionId = some grant →
      grant.permitRef ≠ permit.permitRef) :
    ∃ error, j.consumeDispatchPermit permit = (.error error, j) := by
  unfold consumeDispatchPermit
  simp only
  split
  · exact ⟨_, rfl⟩
  split
  · exact ⟨_, rfl⟩
  · rename_i grant hgrant
    rw [if_pos (.inl (h grant hgrant))]
    exact ⟨_, rfl⟩

theorem recordDispatchLinearized_foreign {permit : DispatchExecutionPermit}
    (receipt : DispatchLinearizationReceipt) (io : AppendIo)
    (h : ∀ grant, j.liveDispatchExecution permit.actionId = some grant →
      grant.permitRef ≠ permit.permitRef) :
    (j.recordDispatchLinearized codec permit receipt io).2 = j := by
  obtain ⟨error, hres⟩ := consumeDispatchPermit_foreign h
  unfold recordDispatchLinearized
  rw [hres]

/-- A call that presents some token of the action, but none of the attempt's, does
nothing while the attempt's grant is live. -/
theorem OwnGrant.unchanged (h : OwnGrant t j) {c : JournalCall}
    (hc : presentsAttempt t c = false) (hpresents : presentsDispatch t.actionId c = true) :
    (c.run codec j).2 = j := by
  cases c with
  | beginDispatch capability permitRef =>
    have ha : capability.actionId = t.actionId := by simpa [presentsDispatch] using hpresents
    refine beginDispatch_foreign permitRef fun grant hgrant heq => ?_
    rw [ha] at hgrant
    simp [presentsAttempt, ← heq, h.prepared grant hgrant] at hc
  | abandonDispatchExecution permit =>
    have ha : permit.actionId = t.actionId := by simpa [presentsDispatch] using hpresents
    obtain ⟨error, hres⟩ : ∃ error, j.consumeDispatchPermit permit = (.error error, j) := by
      refine consumeDispatchPermit_foreign fun grant hgrant heq => ?_
      rw [ha] at hgrant
      simp [presentsAttempt, ← heq, h.execution grant hgrant] at hc
    exact congrArg Prod.snd hres
  | recordDispatchLinearized permit receipt io =>
    have ha : permit.actionId = t.actionId := by simpa [presentsDispatch] using hpresents
    refine recordDispatchLinearized_foreign receipt io fun grant hgrant heq => ?_
    rw [ha] at hgrant
    simp [presentsAttempt, ← heq, h.execution grant hgrant] at hc
  | _ => cases hpresents

/-! ## The action stays at PREPARED -/

theorem not_admits_of_prepared {entries : List ConsequentialJournalEntry}
    {tr : ConsequentialJournalTransition}
    (hs : recoveryStateFor entries a = some .dispatchPrepared)
    (hlinearized : ∀ receipt, tr ≠ .dispatchLinearized receipt)
    (hreceipt : ∀ receipt, tr ≠ .postconditionReceiptRecorded receipt) :
    ¬ Admits .append entries a tr := by
  intro hadm
  cases hadm with
  | intent hs' _ => rw [hs] at hs'; cases hs'
  | authorization hs' => rcases hs' with hs' | hs' <;> rw [hs] at hs' <;> cases hs'
  | prepared hs' _ => rw [hs] at hs'; cases hs'
  | linearized _ => exact hlinearized _ rfl
  | receipt _ _ _ => exact hreceipt _ rfl
  | compensation hs' => rw [hs] at hs'; cases hs'
  | committed hs' => rw [hs] at hs'; cases hs'
  | legacyLinearized hmode _ => cases hmode
  | legacyOutcome hmode _ _ => cases hmode

/-- An append for another action, or one that is not admitted, leaves the
action's state. -/
theorem recoveryState_append {b : Uuid} {tr : ConsequentialJournalTransition} {io : AppendIo}
    (h : b = a → ¬ Admits .append j.entries a tr) :
    recoveryStateFor (j.appendValidatedLocked codec b tr io).2.entries a =
      recoveryStateFor j.entries a := by
  obtain ⟨-, ⟨_, _, hun⟩ | ⟨_, hrec⟩⟩ := append_cases codec j b tr io
  · rw [hun.entries]
  · rw [hrec.entries, recoveryStateFor_snoc]
    by_cases hb : b = a
    · subst hb
      exact absurd hrec.admitted (h rfl)
    · exact if_neg hb

/-- A call that answers with no entry records none. -/
theorem entries_of_unrecorded {fault : Option AppendFault} {ans : JournalAnswer}
    (hs : JournalStep codec fault j ans j') (hans : ans.recorded = none) :
    j'.entries = j.entries := by
  cases hs with
  | refused _ _ _ hun _ => exact hun.entries
  | recorded hrec _ _ _ _ _ _ => rw [hans] at hrec; cases hrec
  | prepared _ _ _ _ _ => cases hans
  | dispatch _ _ _ hun _ _ _ _ => exact hun.entries
  | observation _ _ _ hun _ _ _ _ => exact hun.entries

theorem recordDispatchPrepared_entries (b : Uuid) (receipt : DispatchPreparationReceipt)
    (capabilityRef : Uuid) (io : AppendIo) :
    (j.recordDispatchPrepared codec b receipt capabilityRef io).2.entries =
      (j.appendValidatedLocked codec b (.dispatchPrepared receipt) io).2.entries := by
  unfold recordDispatchPrepared
  rcases j.appendValidatedLocked codec b (.dispatchPrepared receipt) io with ⟨error | entry, j₁⟩
  · rfl
  · rfl

theorem recordDispatchLinearized_entries_other {permit : DispatchExecutionPermit}
    (ha : permit.actionId ≠ a) (receipt : DispatchLinearizationReceipt) (io : AppendIo) :
    recoveryStateFor (j.recordDispatchLinearized codec permit receipt io).2.entries a =
      recoveryStateFor j.entries a := by
  obtain ⟨-, hun, -⟩ := consumeDispatchPermit_cases j permit
  unfold recordDispatchLinearized
  rcases hres : j.consumeDispatchPermit permit with ⟨error | u, j₁⟩ <;> rw [hres] at hun
  · rw [(hun none).entries]
  · have hsame : j₁.entries = j.entries := (hun none).entries
    rw [← hsame]
    exact recoveryState_append fun hb => absurd hb ha

/-- **Only the attempt's token or a receipt moves the action on.** -/
theorem OwnGrant.state_call (h : OwnGrant t j) {c : JournalCall}
    (hc : presentsAttempt t c = false) (hr : recordsReceipt t.actionId c = false) :
    recoveryStateFor (c.run codec j).2.entries t.actionId = some .dispatchPrepared := by
  have hstays : ∀ {b : Uuid} {tr : ConsequentialJournalTransition} {io : AppendIo},
      (∀ receipt, tr ≠ .dispatchLinearized receipt) →
      (∀ receipt, tr ≠ .postconditionReceiptRecorded receipt) →
      recoveryStateFor (j.appendValidatedLocked codec b tr io).2.entries t.actionId =
        some .dispatchPrepared := fun hlinearized hreceipt =>
    (recoveryState_append fun _ => not_admits_of_prepared h.state hlinearized hreceipt).trans
      h.state
  have hsilent : (c.run codec j).1.recorded = none →
      recoveryStateFor (c.run codec j).2.entries t.actionId = some .dispatchPrepared := by
    intro hans
    rw [entries_of_unrecorded (c.run_step codec j) hans]
    exact h.state
  cases c with
  | recordIntentAdmitted | recordAuthorization | recordCompensation | recordCommitted =>
    exact hstays (by intro r hr; cases hr) (by intro r hr; cases hr)
  | recordDispatchPrepared b receipt capabilityRef io =>
    show recoveryStateFor (j.recordDispatchPrepared codec b receipt capabilityRef io).2.entries
      t.actionId = _
    rw [recordDispatchPrepared_entries]
    exact hstays (by intro r hr; cases hr) (by intro r hr; cases hr)
  | beginDispatch capability permitRef =>
    refine hsilent ?_
    show (JournalAnswer.permit (j.beginDispatch capability permitRef).1).recorded = none
    rfl
  | abandonDispatchExecution permit => exact hsilent rfl
  | recordDispatchLinearized permit receipt io =>
    by_cases ha : permit.actionId = t.actionId
    · have hsame : ((JournalCall.recordDispatchLinearized permit receipt io).run codec j).2 = j :=
        h.unchanged hc (by simpa [presentsDispatch] using ha)
      rw [hsame]
      exact h.state
    · exact (recordDispatchLinearized_entries_other ha receipt io).trans h.state
  | beginPostconditionObservation | abandonPostconditionObservation
  | completePostconditionObservation => exact hsilent rfl
  | recordActionPostconditionReceipt draft io =>
    have ha : draft.actionId ≠ t.actionId := by simpa [recordsReceipt] using hr
    show recoveryStateFor (j.recordActionPostconditionReceipt codec draft io).2.entries
      t.actionId = _
    rw [recordActionPostconditionReceipt_snd]
    exact (recoveryState_append fun hb => absurd hb ha).trans h.state

/-- The dispatch grants of the action are left alone, too. -/
theorem OwnGrant.grants_call (h : OwnGrant t j) {c : JournalCall}
    (hc : presentsAttempt t c = false) : SameDispatchGrants t.actionId j (c.run codec j).2 := by
  have hpast : beforePrepared (recoveryStateFor j.entries t.actionId) = false := by
    rw [h.state]
    rfl
  by_cases hpresents : presentsDispatch t.actionId c = true
  · rw [h.unchanged hc hpresents]
    exact .refl _ _
  · exact dispatchGrants_call c hpast (by simpa using hpresents)

/-- While the attempt's grant is live no observation of the action begins. -/
theorem OwnGrant.no_observation (h : OwnGrant t j) {l : CallLabel}
    (hs : CallStep codec j l j') : mintsObservation t.actionId l = false := by
  by_contra hmint
  obtain ⟨hsettled, -⟩ := settled_of_mintsObservation hs (by simpa using hmint)
  rcases h.live with hlive | hlive
  · rw [hsettled.prepared] at hlive
    cases hlive
  · rw [hsettled.execution] at hlive
    cases hlive

/-- The journal forgets no entry. -/
theorem entries_prefix_step {l : CallLabel} (hs : CallStep codec j l j') :
    j.entries <+: j'.entries := by
  obtain ⟨c, ans⟩ := l
  cases hs.journalStep with
  | refused _ _ _ hun _ => rw [hun.entries]
  | recorded _ _ _ hrec _ _ _ => rw [hrec.entries]; exact prefix_append _ _
  | prepared hrec _ _ _ _ => rw [hrec.entries]; exact prefix_append _ _
  | dispatch _ _ _ hun _ _ _ _ => rw [hun.entries]
  | observation _ _ _ hun _ _ _ _ => rw [hun.entries]

theorem entries_prefix_run {tr : List CallLabel} (hrun : Run (CallStep codec) j tr j') :
    j.entries <+: j'.entries := by
  induction hrun with
  | nil j => exact prefix_refl _
  | cons hs _ ih => exact (entries_prefix_step hs).trans ih

/-- What `j'` still has of an attempt whose grant was live in `j`. -/
structure Untouched (t : AttemptTokens) (j j' : ConsequentialJournal) : Prop where
  own : OwnGrant t j'
  grants : SameDispatchGrants t.actionId j j'
  journalInstanceRef : j'.journalInstanceRef = j.journalInstanceRef
  entries : j.entries <+: j'.entries

theorem OwnGrant.untouched_step (h : OwnGrant t j) {l : CallLabel} (hs : CallStep codec j l j')
    (hc : presentsAttempt t l.1 = false) (hr : recordsReceipt t.actionId l.1 = false) :
    Untouched t j j' := by
  obtain rfl : (l.1.run codec j).2 = j' := congrArg Prod.snd hs
  have hgrants : SameDispatchGrants t.actionId j (l.1.run codec j).2 := h.grants_call hc
  refine ⟨⟨h.state_call hc hr, ?_, ?_, ?_⟩, hgrants, journalInstanceRef_step hs,
    entries_prefix_step hs⟩
  · unfold DispatchLive
    rw [hgrants.prepared, hgrants.execution]
    exact h.live
  · rw [hgrants.prepared]; exact h.prepared
  · rw [hgrants.execution]; exact h.execution

/-- **The others' turn leaves the attempt's grant.** -/
theorem OwnGrant.untouched_run {tr : List CallLabel} (hrun : Run (CallStep codec) j tr j')
    (h : OwnGrant t j) (hpresents : ∀ l ∈ tr, presentsAttempt t l.1 = false)
    (hreceipts : ∀ l ∈ tr.takeWhile fun l => !mintsObservation t.actionId l,
      recordsReceipt t.actionId l.1 = false) : Untouched t j j' := by
  induction hrun with
  | nil j => exact ⟨h, .refl _ _, rfl, prefix_refl _⟩
  | @cons j k _ l rest hs _ ih =>
    -- no observation can begin, so no receipt can be recorded
    have hquiet : (!mintsObservation t.actionId l) = true := by rw [h.no_observation hs]; rfl
    rw [takeWhile_cons_of_pos (p := fun l => !mintsObservation t.actionId l) hquiet]
      at hreceipts
    have hone : Untouched t j k := h.untouched_step hs (hpresents l mem_cons_self)
      (hreceipts l mem_cons_self)
    have hrest := ih hone.own (fun m hm => hpresents m (mem_cons_of_mem _ hm))
      fun m hm => hreceipts m (mem_cons_of_mem _ hm)
    exact ⟨hrest.own, hone.grants.trans hrest.grants,
      hrest.journalInstanceRef.trans hone.journalInstanceRef, hone.entries.trans hrest.entries⟩

end

/-! ## On the shared state -/

section
variable {codec : EntryCodec} {t : AttemptTokens} {record : ConsequentialJournalEntry}
  {sh : Shared DispatchWorld}

theorem OthersApart.next (h : OthersApart codec t sh) : OthersApart codec t sh.next :=
  fun n w => h (n + 1) w

theorem OthersApart.after (h : OthersApart codec t sh) (n : Nat) :
    OthersApart codec t (sh.after n) := by
  induction n with
  | zero => exact h
  | succ n ih => exact ih.next

/-- The attempt's grant is live, over its own PREPARED record. -/
structure Guarded (codec : EntryCodec) (t : AttemptTokens) (record : ConsequentialJournalEntry)
    (sh : Shared DispatchWorld) : Prop where
  others : OthersApart codec t sh
  own : OwnGrant t sh.state.journal
  record : record ∈ sh.state.journal.entries

theorem Guarded.untouched (h : Guarded codec t record sh) :
    Untouched t sh.state.journal sh.next.state.journal := by
  obtain ⟨tr, hrun, hpresents, hreceipts⟩ := h.others 0 sh.state
  exact h.own.untouched_run hrun hpresents (hreceipts h.own.live)

theorem Guarded.next (h : Guarded codec t record sh) : Guarded codec t record sh.next :=
  ⟨h.others.next, h.untouched.own, h.untouched.entries.subset h.record⟩

/-- The attempt holds the capability whose grant is live. -/
structure OwnsCapability (codec : EntryCodec) (t : AttemptTokens)
    (record : ConsequentialJournalEntry) (capability : DispatchPreparedCapability)
    (sh : Shared DispatchWorld) : Prop extends Guarded codec t record sh where
  actionId : capability.actionId = t.actionId
  bound : BoundCapability sh.state.journal capability
  execution : sh.state.journal.liveDispatchExecution t.actionId = none

/-- The attempt holds the permit whose grant is live. -/
structure OwnsPermit (codec : EntryCodec) (t : AttemptTokens)
    (record : ConsequentialJournalEntry) (permit : DispatchExecutionPermit)
    (sh : Shared DispatchWorld) : Prop extends Guarded codec t record sh where
  actionId : permit.actionId = t.actionId
  bound : BoundPermit sh.state.journal permit
  prepared : sh.state.journal.liveDispatchPrepared t.actionId = none

theorem OwnsCapability.next {capability : DispatchPreparedCapability}
    (h : OwnsCapability codec t record capability sh) :
    OwnsCapability codec t record capability sh.next := by
  have hturn := h.toGuarded.untouched
  obtain ⟨hinst, hgrant⟩ := h.bound
  refine ⟨h.toGuarded.next, h.actionId, ⟨?_, ?_⟩, ?_⟩
  · rw [hturn.journalInstanceRef]; exact hinst
  · rw [h.actionId] at hgrant ⊢
    rw [hturn.grants.prepared]; exact hgrant
  · rw [hturn.grants.execution]; exact h.execution

theorem OwnsPermit.next {permit : DispatchExecutionPermit}
    (h : OwnsPermit codec t record permit sh) : OwnsPermit codec t record permit sh.next := by
  have hturn := h.toGuarded.untouched
  obtain ⟨hinst, hgrant⟩ := h.bound
  refine ⟨h.toGuarded.next, h.actionId, ⟨?_, ?_⟩, ?_⟩
  · rw [hturn.journalInstanceRef]; exact hinst
  · rw [h.actionId] at hgrant ⊢
    rw [hturn.grants.execution]; exact hgrant
  · rw [hturn.grants.prepared]; exact h.prepared

end

end Localview
