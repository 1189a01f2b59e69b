import Localview.DispatchAttempt

/-! # Which failed dispatch attempts can be reconciled

The comments of all three stages promise that a failure after PREPARED leaves
the action for reconciliation.  Within the process that holds only where the
failing branch reaches a call that consumes the live grant: this module states,
for each stage, the branches that do, and proves that no other does.
-/
namespace Localview
open EarlyReturn StateRun AsyncState

/-- `begin_postcondition_observation` does not refuse the action for a dispatch
authority that is still live. -/
def Reconcilable (a : Uuid) (sh : Shared DispatchWorld) : Prop :=
  ∀ observationRef, (sh.state.journal.beginPostconditionObservation a observationRef).1 ≠
    .error (.dispatchAuthorityStillLive a)

/-- The function either succeeds or fails with the action reconcilable. -/
def ReconcilableOnError {ε α : Type} (a : Uuid) (f : Async DispatchWorld ε α)
    (sh : Shared DispatchWorld) : Prop :=
  Ends f sh (fun _ _ => True) (fun _ => Reconcilable a)

/-- What the revalidation finds in its four accesses: the sealed envelope, still
current, and the journal at PREPARED. -/
structure CanonicalPrepared (sessionId : SessionId) (a : Uuid) (authority : ActionEnvelopeMetadata)
    (sh : Shared DispatchWorld) : Prop where
  envelope : ∃ envelope, (sh.after 1).state.bridge.actionEnvelopes a = some envelope ∧
    envelopeChanged envelope sessionId a authority = false
  current : ∃ envelope, (sh.after 2).state.bridge.actionEnvelopes a = some envelope ∧
    envelopeMatchesContinuity (sh.after 3).state.bridge envelope = true
  prepared : recoveryStateFor (sh.after 4).state.journal.entries a = some .dispatchPrepared

/-- Arming reaches `begin_dispatch`: both revalidations and the context between
them pass. -/
def ArmReachesBegin (sessionId : SessionId) (prepared : WindowsUiaPreparedDispatchReceipt)
    (revalidated : Except WindowsObserveRuntimeError WindowsUiaBoundDispatchContextReceipt)
    (sh : Shared DispatchWorld) : Prop :=
  CanonicalPrepared sessionId prepared.actionId prepared.sealReceipt.authority sh ∧
    (∃ context, revalidated = .ok context ∧
      contextMatchesPreparedLease prepared.sealReceipt.elementLease
        prepared.sealReceipt.contextRequirements context = true ∧
      evaluateWindowsUiaDispatchContext prepared.sealReceipt.contextRequirements
        context.observation = .ok ()) ∧
    CanonicalPrepared sessionId prepared.actionId prepared.sealReceipt.authority (sh.after 5)

/-- Where the execution gets as far as its companion records and its request,
those are good: the records can be read, a SetValue has its payload record, and
a payload that matches it makes a request. -/
def SetValueReadsGood (sessionId : SessionId) (armed : WindowsUiaDispatchExecutionPermit)
    (payload : WindowsUiaSetValueExecutionPayload) (dispatchAttemptRef : Uuid)
    (sh : Shared DispatchWorld) : Prop :=
  CanonicalPrepared sessionId armed.actionId armed.sealReceipt.authority sh →
    Ends (admittedOperation armed.actionId) (sh.after 4)
      (fun operation sh => operation = some .setValue → armed.sealReceipt.requiredPattern = .value →
        Ends (setValuePayloadBinding armed.actionId) sh
          (fun binding _ => ∃ durable, binding = some durable ∧
            (payloadBindingMismatch durable armed.actionId payload = false →
              ∃ request, (setValueRequest armed payload dispatchAttemptRef).new = .ok request))
          (fun _ _ => False))
      (fun _ _ => False)

/-! ## Reconcilable means released -/

section
variable {codec : EntryCodec} {a : Uuid} {sh : Shared DispatchWorld}

theorem reconcilable_iff : Reconcilable a sh ↔
    sh.state.journal.liveDispatchPrepared a = none ∧
      sh.state.journal.liveDispatchExecution a = none := by
  unfold Reconcilable ConsequentialJournal.beginPostconditionObservation
  constructor
  · intro h
    have hnot := h 0
    simp only at hnot
    split at hnot
    · exact absurd rfl hnot
    · rename_i hlive
      simpa using hlive
  · rintro ⟨hprepared, hexecution⟩ observationRef
    simp only [hprepared, hexecution, Option.isSome_none, Bool.false_eq_true, or_self, if_false]
    split
    · intro h; cases h
    split
    · intro h; cases h
    split
    · intro h; cases h
    split
    · intro h; cases h
    · intro h; cases h

theorem Released.reconcilable (h : Released codec a sh) : Reconcilable a sh :=
  reconcilable_iff.mpr ⟨h.prepared, h.execution⟩

/-- A live capability keeps the action locked. -/
theorem HoldsCapability.not_reconcilable {capability : DispatchPreparedCapability}
    (h : HoldsCapability codec a capability sh) : ¬ Reconcilable a sh := by
  intro hrec
  have hnone := (reconcilable_iff.mp hrec).1
  have hsome := h.bound.2
  rw [h.actionId, hnone] at hsome
  cases hsome

/-- A live permit keeps the action locked. -/
theorem HoldsPermit.not_reconcilable {permit : DispatchExecutionPermit}
    (h : HoldsPermit codec a permit sh) : ¬ Reconcilable a sh := by
  intro hrec
  have hnone := (reconcilable_iff.mp hrec).2
  have hsome := h.bound.2
  rw [h.actionId, hnone] at hsome
  cases hsome

end

section
variable {ε : Type} {errors : CanonicalCheckErrors ε} {sessionId : SessionId} {a : Uuid}
  {authority : ActionEnvelopeMetadata} {sh : Shared DispatchWorld}

/-- The current check, as the one condition its caller rejects on. -/
theorem ends_actionEnvelopeIsCurrent {ok : Bool → Shared DispatchWorld → Prop}
    {err : ε → Shared DispatchWorld → Prop} :
    Ends (actionEnvelopeIsCurrent a) sh ok err ↔
      (∀ envelope, (sh.after 1).state.bridge.actionEnvelopes a = some envelope →
          ok (envelopeMatchesContinuity (sh.after 2).state.bridge envelope) (sh.after 2)) ∧
        ((sh.after 1).state.bridge.actionEnvelopes a = none → ok false (sh.after 1)) := by
  unfold actionEnvelopeIsCurrent actionEnvelope
  rw [ends_bind, ends_read]
  cases (sh.after 1).state.bridge.actionEnvelopes a with
  | none => simp
  | some envelope => simp

theorem looks_actionEnvelopeIsCurrent :
    Looks (actionEnvelopeIsCurrent a : Async DispatchWorld ε Bool) := by
  refine (looks_read _).bind fun envelope => ?_
  cases envelope with
  | none => exact looks_pure false
  | some envelope => exact looks_read _

theorem looks_verifyCanonicalPrepared :
    Looks (verifyCanonicalPrepared errors sessionId a authority) :=
  (looks_read _).bind fun value => (looks_ofOption value _).bind fun _ =>
    (looks_reject _ _).bind fun _ => looks_actionEnvelopeIsCurrent.bind fun _ =>
      (looks_reject _ _).bind fun _ => (looks_read _).bind fun _ => looks_reject _ _

/-- **The revalidation**, in states from which no error is acceptable: it passes
exactly where its accesses find the action prepared. -/
theorem ends_verifyCanonicalPrepared {ok : Unit → Shared DispatchWorld → Prop}
    {err : ε → Shared DispatchWorld → Prop} (herr : ∀ e n, ¬ err e (sh.after n)) :
    Ends (verifyCanonicalPrepared errors sessionId a authority) sh ok err ↔
      CanonicalPrepared sessionId a authority sh ∧ ok () (sh.after 4) := by
  unfold verifyCanonicalPrepared actionEnvelope recoveryState
  simp only [ends_bind, ends_read, ends_ofOption, ends_reject, ends_actionEnvelopeIsCurrent,
    Shared.after_after, Nat.reduceAdd, herr, imp_false, Bool.not_eq_true, not_not]
  constructor
  · rintro ⟨henvelope, hsome⟩
    obtain ⟨envelope, henv⟩ := Option.ne_none_iff_exists'.mp hsome
    obtain ⟨hchanged, hrest⟩ := henvelope envelope henv
    obtain ⟨hcurrent, hmissing⟩ := hrest hchanged
    obtain ⟨envelope', henv'⟩ :=
      Option.ne_none_iff_exists'.mp fun hnone => (hmissing hnone).1 trivial
    obtain ⟨hmatches, hstate⟩ := hcurrent envelope' henv'
    obtain ⟨hprepared, hok⟩ := hstate hmatches
    exact ⟨⟨⟨envelope, henv, hchanged⟩, ⟨envelope', henv', by simpa using hmatches⟩, hprepared⟩,
      hok hprepared⟩
  · rintro ⟨⟨⟨envelope, henv, hchanged⟩, ⟨envelope', henv', hmatches⟩, hprepared⟩, hok⟩
    simp [henv, henv', hchanged, hmatches, hprepared, hok]

end

section
variable {codec : EntryCodec} {a : Uuid} {sh : Shared DispatchWorld}

variable {admission : DispatchPreparedAdmission}

/-- A recorded PREPARED: the admission is of this record, its capability's grant
is live, and nothing else changed hands. -/
theorem recordDispatchPrepared_ok {j : ConsequentialJournal} {receipt : DispatchPreparationReceipt}
    {capabilityRef : Uuid} {io : AppendIo}
    (h : (j.recordDispatchPrepared codec a receipt capabilityRef io).1 = .ok admission) :
    let j' := (j.recordDispatchPrepared codec a receipt capabilityRef io).2
    (admission.entry ∈ j'.entries ∧ admission.entry.actionId = a ∧
        admission.entry.transition = .dispatchPrepared receipt) ∧
      (admission.capability.capabilityRef = capabilityRef ∧ admission.capability.actionId = a ∧
        admission.capability.preparationJournalSequence = admission.entry.journalSequence ∧
        BoundCapability j' admission.capability) ∧
      j'.liveDispatchExecution = j.liveDispatchExecution ∧
      beforePrepared (recoveryStateFor j.entries a) = true ∧
      recoveryStateFor j'.entries a = some .dispatchPrepared := by
  obtain ⟨hsame, hcases⟩ := append_cases codec j a (.dispatchPrepared receipt) io
  unfold ConsequentialJournal.recordDispatchPrepared at h ⊢
  rcases hres : j.appendValidatedLocked codec a (.dispatchPrepared receipt) io with ⟨result, j₁⟩
  rw [hres] at hsame hcases h
  rcases hcases with ⟨error, herr, -⟩ | ⟨hok, hrec⟩
  · simp only at herr
    subst herr
    cases h
  · simp only at hok
    subst hok
    cases h
    have hadm : Admits .append j.entries a (.dispatchPrepared receipt) := hrec.admitted
    have hbefore : beforePrepared (recoveryStateFor j.entries a) = true := by
      cases hadm with
      | prepared hs _ => rw [hs]; rfl
    refine ⟨⟨?_, rfl, rfl⟩, ⟨rfl, rfl, rfl, rfl, Function.update_self _ _ _⟩, hsame.execution,
      hbefore, ?_⟩
    · show j.nextEntry a (.dispatchPrepared receipt) io ∈ j₁.entries
      rw [hrec.entries]
      exact List.mem_append_right _ (List.mem_singleton_self _)
    · show recoveryStateFor j₁.entries a = _
      rw [hrec.entries, recoveryStateFor_snoc]
      exact if_pos rfl

def preparedState (codec : EntryCodec) (a : Uuid) (preparation : DispatchPreparationReceipt)
    (io : PreparationIo) (sh : Shared DispatchWorld) : Shared DispatchWorld :=
  (sh.after 1).set { (sh.after 1).state with
    journal := ((sh.after 1).state.journal.recordDispatchPrepared codec a preparation
      io.capabilityRef io.append).2 }

theorem holdsCapability_preparedState {preparation : DispatchPreparationReceipt}
    {io : PreparationIo}
    (hothers : OthersWithout codec a sh) (hexec : ExecutionPast (sh.after 1).state.journal)
    (h : ((sh.after 1).state.journal.recordDispatchPrepared codec a preparation io.capabilityRef
      io.append).1 = .ok admission) :
    HoldsCapability codec a admission.capability (preparedState codec a preparation io sh) := by
  obtain ⟨-, ⟨-, haction, -, hbound⟩, hexecution, hbefore, hstate⟩ := recordDispatchPrepared_ok h
  exact ⟨⟨hothers.after 1, congrArg beforePrepared hstate⟩, haction, hbound,
    (congrFun hexecution a).trans (hexec a hbefore)⟩

/-- **Preparing** ends with the capability of its own record, or fails. -/
theorem ends_prepareUiaDispatch (hothers : OthersWithout codec a sh)
    (hexec : ExecutionPast (sh.after 1).state.journal) (sessionId : SessionId)
    (sealed : Except WindowsUiaDispatchSealError WindowsUiaDispatchSealReceipt)
    (io : PreparationIo) :
    Ends (prepareUiaDispatch codec sessionId a sealed io) sh
      (fun prepared sh' => prepared.actionId = a ∧
        prepared.preparationJournalSequence =
          prepared.dispatchCapability.preparationJournalSequence ∧
        HoldsCapability codec a prepared.dispatchCapability sh')
      (fun _ _ => True) := by
  unfold prepareUiaDispatch recordPreparation
  simp only [ends_bind, ends_mapError, ends_ofExcept, ends_journalCall, ends_reject, implies_true,
    true_and, and_true, ends_pure]
  intro sealReceipt _ admission hadmission _
  obtain ⟨-, ⟨-, -, hseq, -⟩, -⟩ := recordDispatchPrepared_ok hadmission
  have hholds := holdsCapability_preparedState hothers hexec hadmission
  have hkeeps : Keeps (HoldsCapability codec a admission.capability)
      (verifyCanonicalPrepared afterPrepareErrors sessionId a sealReceipt.authority) :=
    looks_verifyCanonicalPrepared.keeps fun _ h => h.next
  exact (hkeeps _ hholds).mono (fun _ _ h => ⟨hseq.symm, h⟩) fun _ _ _ => trivial

/-- **A failure after PREPARED strands the action**: preparing leaves it
reconcilable exactly where it does not fail. -/
theorem prepare_reconcilable_iff (hothers : OthersWithout codec a sh)
    (hexec : ExecutionPast (sh.after 1).state.journal) {sessionId : SessionId}
    {sealReceipt : WindowsUiaDispatchSealReceipt} {io : PreparationIo}
    (hadmission : ((sh.after 1).state.journal.recordDispatchPrepared codec a
      (preparationReceipt a io.receiptUuid sealReceipt) io.capabilityRef io.append).1 =
        .ok admission) :
    ReconcilableOnError a (prepareUiaDispatch codec sessionId a (.ok sealReceipt) io) sh ↔
      CanonicalPrepared sessionId a sealReceipt.authority
        (preparedState codec a (preparationReceipt a io.receiptUuid sealReceipt) io sh) := by
  obtain ⟨⟨-, -, htransition⟩, -⟩ := recordDispatchPrepared_ok hadmission
  have hholds := holdsCapability_preparedState hothers hexec hadmission
  have hverify : ∀ sh', sh' = preparedState codec a
      (preparationReceipt a io.receiptUuid sealReceipt) io sh →
      (Ends (verifyCanonicalPrepared afterPrepareErrors sessionId a sealReceipt.authority) sh'
          (fun _ _ => True) (fun _ => Reconcilable a) ↔
        CanonicalPrepared sessionId a sealReceipt.authority sh') := by
    rintro sh' rfl
    rw [ends_verifyCanonicalPrepared fun _ n => (hholds.after n).not_reconcilable]
    exact and_iff_left trivial
  unfold ReconcilableOnError prepareUiaDispatch recordPreparation
  simp only [ends_bind, ends_mapError, ends_ofExcept, ends_journalCall, ends_reject, ends_pure,
    hadmission, Except.ok.injEq, forall_eq', htransition, reduceCtorEq, false_implies,
    implies_true, and_true, ne_eq, not_true_eq_false, not_false_eq_true, true_implies, true_and]
  exact hverify _ rfl

end

/-! ## Arming -/

section
variable {codec : EntryCodec} {a : Uuid} {sh : Shared DispatchWorld}

/-- `begin_dispatch` on the held capability: the permit of its record, or no
grant at all. -/
theorem ends_beginDispatch {capability : DispatchPreparedCapability}
    (h : HoldsCapability codec a capability sh) (permitRef : Uuid) :
    Ends (journalCall fun j => j.beginDispatch capability permitRef) sh
      (fun permit sh' => permit.actionId = a ∧
        permit.preparationJournalSequence = capability.preparationJournalSequence ∧
        HoldsPermit codec a permit sh')
      (fun _ => Released codec a) := by
  have hturn : HoldsCapability codec a capability (sh.after 1) := h.next
  have hs : CallStep codec (sh.after 1).state.journal
      (.beginDispatch capability permitRef,
        .permit ((sh.after 1).state.journal.beginDispatch capability permitRef).1)
      ((sh.after 1).state.journal.beginDispatch capability permitRef).2 := rfl
  have hpast := past_step hs hturn.past
  obtain ⟨hprepared, hcases⟩ := beginDispatch_consumes hturn.bound permitRef
  rw [hturn.actionId] at hprepared hcases
  rw [ends_journalCall]
  rcases hcases with ⟨⟨error, herr⟩, hexecution⟩ | ⟨permit, hok, haction, hseq, hbound⟩
  · refine ⟨fun permit hok => ?_, fun _ _ => ?_⟩
    · rw [herr] at hok
      cases hok
    · exact ⟨⟨hturn.others, hpast⟩, hprepared, hexecution.trans hturn.execution⟩
  · refine ⟨fun permit' hok' => ?_, fun error herr => ?_⟩
    · obtain rfl : permit = permit' := Except.ok.inj (hok.symm.trans hok')
      exact ⟨haction, hseq, ⟨hturn.others, hpast⟩, haction, hbound, hprepared⟩
    · rw [hok] at herr
      cases herr

/-- What arming needs of the receipt that preparing returned. -/
structure GenuinePrepared (codec : EntryCodec) (a : Uuid)
    (prepared : WindowsUiaPreparedDispatchReceipt) (sh : Shared DispatchWorld) : Prop where
  actionId : prepared.actionId = a
  sequence : prepared.preparationJournalSequence =
    prepared.dispatchCapability.preparationJournalSequence
  holds : HoldsCapability codec a prepared.dispatchCapability sh

variable {sessionId : SessionId} {prepared : WindowsUiaPreparedDispatchReceipt}
  {revalidated : Except WindowsObserveRuntimeError WindowsUiaBoundDispatchContextReceipt}
  {permitRef : Uuid}

theorem ends_beginArmed (h : GenuinePrepared codec a prepared sh)
    (context : WindowsUiaBoundDispatchContextReceipt) :
    Ends (beginArmed prepared context permitRef) sh
      (fun armed sh' => armed.actionId = a ∧ HoldsPermit codec a armed.dispatchPermit sh')
      (fun _ => Released codec a) := by
  unfold beginArmed
  rw [ends_bind, ends_mapError]
  refine (ends_beginDispatch h.holds permitRef).mono ?_ fun _ _ hreleased => hreleased
  rintro permit sh' ⟨haction, hseq, hholds⟩
  rw [ends_bind, ends_reject]
  refine ⟨fun hbad => ?_, fun _ => ⟨h.actionId, hholds⟩⟩
  -- the permit is of the action and the record the receipt names
  rcases hbad with hbad | hbad
  · exact absurd (haction.trans h.actionId.symm) hbad
  · exact absurd (hseq.trans h.sequence.symm) hbad

theorem looks_revalidatedContext : Looks (revalidatedContext sessionId prepared revalidated) :=
  looks_verifyCanonicalPrepared.bind fun _ =>
    (looks_access fun _ => rfl).mapError.bind fun _ => (looks_reject _ _).bind fun _ =>
      (looks_ofExcept _).mapError.bind fun _ => looks_verifyCanonicalPrepared.bind fun _ =>
        looks_pure _

/-- In states from which no error is acceptable, the context is revalidated
exactly where `ArmReachesBegin` says. -/
theorem ends_revalidatedContext
    {ok : WindowsUiaBoundDispatchContextReceipt → Shared DispatchWorld → Prop}
    {err : WindowsUiaDispatchExecutionArmError → Shared DispatchWorld → Prop}
    (hok : ∀ context n, ok context (sh.after n)) (herr : ∀ e n, ¬ err e (sh.after n)) :
    Ends (revalidatedContext sessionId prepared revalidated) sh ok err ↔
      ArmReachesBegin sessionId prepared revalidated sh := by
  unfold revalidatedContext external ArmReachesBegin
  rw [ends_bind, ends_verifyCanonicalPrepared herr]
  refine and_congr_right fun _ => ?_
  have hafter : ∀ e n, ¬ err e ((sh.after 5).after n) := by
    intro e n
    rw [Shared.after_after]
    exact herr e _
  have hset : ((sh.after 4).after 1).set ((sh.after 4).after 1).state = sh.after 5 := rfl
  simp only [ends_bind, ends_mapError, ends_access, ends_reject, ends_ofExcept, ends_pure, hset,
    ends_verifyCanonicalPrepared hafter, herr, imp_false]
  cases revalidated with
  | error error => simp
  | ok context =>
    cases hctx : evaluateWindowsUiaDispatchContext prepared.sealReceipt.contextRequirements
        context.observation with
    | error blocker => simp [hctx]
    | ok u => simp +contextual [hctx, hok]

/-- **Arming** ends with a permit of the action, or fails. -/
theorem ends_armUiaDispatchExecution (h : GenuinePrepared codec a prepared sh) :
    Ends (armUiaDispatchExecution sessionId prepared revalidated permitRef) sh
      (fun armed sh' => armed.actionId = a ∧ HoldsPermit codec a armed.dispatchPermit sh')
      (fun _ _ => True) := by
  have hkeeps : Keeps (GenuinePrepared codec a prepared)
      (revalidatedContext sessionId prepared revalidated) :=
    looks_revalidatedContext.keeps fun _ h => ⟨h.actionId, h.sequence, h.holds.next⟩
  unfold armUiaDispatchExecution
  rw [ends_bind]
  exact (hkeeps _ h).mono (fun context _ h' => (ends_beginArmed h' context).mono
    (fun _ _ hok => hok) fun _ _ _ => trivial) fun _ _ _ => trivial

/-- **Arming leaves the action reconcilable exactly where it reaches
`begin_dispatch`.** -/
theorem arm_reconcilable_iff (h : GenuinePrepared codec a prepared sh) :
    ReconcilableOnError a (armUiaDispatchExecution sessionId prepared revalidated permitRef) sh ↔
      ArmReachesBegin sessionId prepared revalidated sh := by
  unfold ReconcilableOnError armUiaDispatchExecution
  rw [ends_bind]
  refine ends_revalidatedContext (fun context n => ?_) fun _ n =>
    (h.holds.after n).not_reconcilable
  have hn : GenuinePrepared codec a prepared (sh.after n) :=
    ⟨h.actionId, h.sequence, h.holds.after n⟩
  exact (ends_beginArmed hn context).mono (fun _ _ _ => trivial)
    fun _ _ hreleased => hreleased.reconcilable

end

end Localview
