import Localview.AttemptGrant
import Localview.SetValueReconcilable
import Localview.ActionExecution

/-! # The verified-action protocol

One attempt runs through preparing, arming, executing and verifying, the other
tasks moving the journal and the bridge between any two accesses, and any stage
may fail.  Three facts hold of it.  The executor is called at most once, under
the attempt's own PREPARED record.  A commit rests on an observation that was
authorized after the dispatch was recorded.  A failure of the execution itself
leaves the action at PREPARED, its grant consumed.
-/
namespace Localview
open EarlyReturn StateRun AsyncState List ConsequentialJournal

/-! ## Later states of an attempt -/

/-- `sh` is a later state of what began in `start`: the journal has moved by its
calls, and the other tasks' turns are those that were left. -/
structure Later (codec : EntryCodec) (start sh : Shared DispatchWorld) : Prop where
  run : ∃ tr, Run (CallStep codec) start.state.journal tr sh.state.journal
  others : ∃ n, sh.others = fun k => start.others (k + n)

/-- The other tasks move the journal by its calls. -/
def OthersRun (codec : EntryCodec) (start : Shared DispatchWorld) : Prop :=
  ∀ n w, ∃ tr, Run (CallStep codec) w.journal tr (start.others n w).journal

section
variable {codec : EntryCodec} {start sh : Shared DispatchWorld}

theorem OthersApart.run {t : AttemptTokens} (h : OthersApart codec t start) :
    OthersRun codec start := by
  intro n w
  obtain ⟨tr, hrun, -⟩ := h n w
  exact ⟨tr, hrun⟩

theorem Later.refl (codec : EntryCodec) (sh : Shared DispatchWorld) : Later codec sh sh :=
  ⟨⟨[], Run.nil _⟩, 0, rfl⟩

theorem Later.trans {mid : Shared DispatchWorld} (h : Later codec start mid)
    (h' : Later codec mid sh) : Later codec start sh := by
  obtain ⟨tr, hrun⟩ := h.run
  obtain ⟨tr', hrun'⟩ := h'.run
  obtain ⟨n, hothers⟩ := h.others
  obtain ⟨m, hothers'⟩ := h'.others
  refine ⟨⟨_, Run.append_iff.mpr ⟨_, hrun, hrun'⟩⟩, m + n, ?_⟩
  rw [hothers', hothers]
  funext k
  exact congrArg start.others (Nat.add_assoc k m n)

theorem Later.entries (h : Later codec start sh) :
    start.state.journal.entries <+: sh.state.journal.entries := by
  obtain ⟨tr, hrun⟩ := h.run
  exact entries_prefix_run hrun

theorem Later.othersRun (h : Later codec start sh) (hothers : OthersRun codec start) :
    OthersRun codec sh := by
  obtain ⟨m, hm⟩ := h.others
  intro n w
  rw [hm]
  exact hothers (n + m) w

theorem later_next (hothers : OthersRun codec start) : Later codec start start.next :=
  ⟨hothers 0 start.state, 1, rfl⟩

variable (hothers : OthersRun codec start)
include hothers

theorem Later.next (h : Later codec start sh) : Later codec start sh.next :=
  h.trans (later_next (h.othersRun hothers))

theorem keeps_later_looks {ε α : Type} {f : Async DispatchWorld ε α} (hf : Looks f) :
    Keeps (Later codec start) f :=
  hf.keeps fun _ h => h.next hothers

theorem keeps_later_call {ε α : Type} (c : JournalCall)
    {call : ConsequentialJournal → Except ε α × ConsequentialJournal}
    (hcall : ∀ j, (call j).2 = (c.run codec j).2) :
    Keeps (Later codec start) (journalCall call) := by
  intro sh h
  have hturn : Later codec start (sh.after 1) := h.next hothers
  have hkept : Later codec start ((sh.after 1).set { (sh.after 1).state with
      journal := (call (sh.after 1).state.journal).2 }) := by
    obtain ⟨tr, hrun⟩ := hturn.run
    refine ⟨⟨tr ++ [(c, (c.run codec (sh.after 1).state.journal).1)], ?_⟩, hturn.others⟩
    refine hrun.snoc ?_
    show c.run codec (sh.after 1).state.journal = (_, (call (sh.after 1).state.journal).2)
    rw [hcall]
  exact ends_journalCall.mpr ⟨fun _ _ => hkept, fun _ _ => hkept⟩

/-! ### Every stage goes on from where it starts -/

theorem keeps_later_prepareUiaDispatch (sessionId : SessionId) (a : Uuid)
    (sealed : Except WindowsUiaDispatchSealError WindowsUiaDispatchSealReceipt)
    (io : PreparationIo) :
    Keeps (Later codec start) (prepareUiaDispatch codec sessionId a sealed io) := by
  refine (keeps_ofExcept sealed).mapError _ |>.bind fun sealReceipt => ?_
  have hrecord : Keeps (Later codec start) (recordPreparation codec a
      (preparationReceipt a io.receiptUuid sealReceipt) io) :=
    keeps_later_call hothers (.recordDispatchPrepared a _ io.capabilityRef io.append) fun _ => rfl
  exact (hrecord.mapError _).bind fun admission => (keeps_reject _ _).bind fun _ =>
    (keeps_later_looks hothers looks_verifyCanonicalPrepared).bind fun _ => keeps_pure _

theorem keeps_later_armUiaDispatchExecution (sessionId : SessionId)
    (prepared : WindowsUiaPreparedDispatchReceipt)
    (revalidated : Except WindowsObserveRuntimeError WindowsUiaBoundDispatchContextReceipt)
    (permitRef : Uuid) :
    Keeps (Later codec start)
      (armUiaDispatchExecution sessionId prepared revalidated permitRef) := by
  have hbegin : Keeps (Later codec start)
      (journalCall fun j => j.beginDispatch prepared.dispatchCapability permitRef) :=
    keeps_later_call hothers (.beginDispatch prepared.dispatchCapability permitRef) fun _ => rfl
  exact (keeps_later_looks hothers looks_revalidatedContext).bind fun context =>
    (hbegin.mapError _).bind fun permit => (keeps_reject _ _).bind fun _ => keeps_pure _

theorem keeps_later_abandonExecution {α : Type} (permit : DispatchExecutionPermit)
    (stage : String) (e : WindowsUiaDispatchExecutionCoordinatorError) :
    Keeps (Later codec start)
      (abandonExecution permit stage e :
        Async DispatchWorld WindowsUiaDispatchExecutionCoordinatorError α) := by
  have habandon : Keeps (Later codec start)
      (journalCall fun j => j.abandonDispatchExecution permit) :=
    keeps_later_call hothers (.abandonDispatchExecution permit) fun _ => rfl
  exact (habandon.mapError _).bind fun _ => keeps_fail e

theorem keeps_later_armedExecutionRequest (sessionId : SessionId)
    (armed : WindowsUiaDispatchExecutionPermit) (dispatchAttemptRef : Uuid) :
    Keeps (Later codec start) (armedExecutionRequest sessionId armed dispatchAttemptRef) := by
  refine (keeps_later_looks hothers looks_verifyCanonicalPrepared).attempt.bind fun verified => ?_
  rcases verified with error | u
  · exact keeps_later_abandonExecution hothers _ _ _
  refine (keeps_later_looks hothers (looks_admittedOperation _)).attempt.bind fun operation => ?_
  refine Keeps.bind ?_ fun verb => keeps_pure _
  rcases operation with error | _ | operation
  · exact keeps_later_abandonExecution hothers _ _ _
  · exact keeps_later_abandonExecution hothers _ _ _
  · unfold providerVerb
    simp only
    split
    · exact keeps_pure _
    · exact keeps_later_abandonExecution hothers _ _ _

theorem keeps_later_acceptedReceipt (permit : DispatchExecutionPermit)
    (request : WindowsUiaProviderExecutionRequest)
    (answer : Except String WindowsUiaProviderExecutionReceipt) :
    Keeps (Later codec start) (acceptedReceipt permit request answer) := by
  rcases answer with message | receipt
  · exact keeps_later_abandonExecution hothers _ _ _
  unfold acceptedReceipt
  simp only
  split
  · exact keeps_later_abandonExecution hothers _ _ _
  split
  · exact keeps_later_abandonExecution hothers _ _ _
  · exact keeps_pure _

theorem keeps_later_linearizeExecution (armed : WindowsUiaDispatchExecutionPermit)
    (receipt : WindowsUiaProviderExecutionReceipt) (io : AppendIo) :
    Keeps (Later codec start) (linearizeExecution codec armed receipt io) := by
  have hrecord : Keeps (Later codec start) (journalCall fun j =>
      j.recordDispatchLinearized codec armed.dispatchPermit (dispatchLinearization receipt) io) :=
    keeps_later_call hothers (.recordDispatchLinearized armed.dispatchPermit _ io) fun _ => rfl
  exact (hrecord.mapError _).bind fun entry => (keeps_reject _ _).bind fun _ => keeps_pure _

theorem lasting_later : Lasting codec (Later codec start) where
  looks := keeps_later_looks hothers
  call c _ := keeps_later_call hothers c

theorem keeps_later_verifierEvidence (verifier : WindowsUiaPostconditionVerifier)
    (sessionId : SessionId) (a : Uuid) (snapshot : NativeSemanticSnapshotRevision) :
    Keeps (Later codec start) (verifierEvidence verifier sessionId a snapshot) :=
  (keeps_later_looks hothers (looks_read _)).bind fun _ => (keeps_ofOption _ _).bind
    fun _ => (keeps_reject _ _).bind fun _ => (keeps_ofExcept _).mapError _

theorem keeps_later_commitVerified (dispatch : WindowsUiaDispatchVerificationContext)
    (reconciliation : ConsequentialPostconditionReconciliationResult) (io : AppendIo) :
    Keeps (Later codec start) (commitVerified codec dispatch reconciliation io) := by
  have hcommit : Keeps (Later codec start) (journalCall fun j =>
      j.recordCommitted codec dispatch.actionId io) :=
    keeps_later_call hothers (.recordCommitted dispatch.actionId io) fun _ => rfl
  unfold commitVerified
  simp only
  split
  · exact (hcommit.mapError _).bind fun _ => keeps_pure _
  · exact keeps_pure _

theorem keeps_later_observeDispatched (surroundings : CaptureSurroundings)
    (a observationRef : Uuid) :
    Keeps (Later codec start) (observeDispatched surroundings a observationRef) := by
  have hbegin : Keeps (Later codec start) (journalCall fun j =>
      j.beginPostconditionObservation a observationRef) :=
    keeps_later_call hothers (.beginPostconditionObservation a observationRef) fun _ => rfl
  exact (hbegin.mapError _).bind fun permit =>
    (((lasting_later hothers).capture surroundings permit).mapError _).bind fun _ =>
      (keeps_reject _ _).bind fun _ => keeps_pure _

theorem keeps_later_completeUiaDispatchVerification (surroundings : CaptureSurroundings)
    (verifier : WindowsUiaPostconditionVerifier) (sessionId : SessionId)
    (dispatch : WindowsUiaDispatchVerificationContext) (io : VerificationIo) :
    Keeps (Later codec start)
      (completeUiaDispatchVerification codec surroundings verifier sessionId dispatch io) := by
  refine (keeps_later_looks hothers (looks_read _)).bind fun state => ?_
  split
  · exact keeps_pure _
  · exact (keeps_reject _ _).bind fun _ => (keeps_later_observeDispatched hothers _ _ _).bind
      fun capture => (keeps_later_verifierEvidence hothers _ _ _ _).bind fun evidence =>
        (((lasting_later hothers).reconcileSetValue _ _).mapError _).bind fun reconciliation =>
          keeps_later_commitVerified hothers _ _ _

end

/-! ## Preparing and arming -/

section
variable (a receiptUuid : Uuid) (sealReceipt : WindowsUiaDispatchSealReceipt)
  (record : ConsequentialJournalEntry)

/-- The PREPARED record of an attempt: of its action, under its seal. -/
structure PreparedRecord : Prop where
  actionId : record.actionId = a
  transition : record.transition =
    .dispatchPrepared (preparationReceipt a receiptUuid sealReceipt)

/-- What preparing returns for that record. -/
structure PreparedUnder (prepared : WindowsUiaPreparedDispatchReceipt) : Prop
    extends PreparedRecord a receiptUuid sealReceipt record where
  preparedAction : prepared.actionId = a
  preparedSeal : prepared.sealReceipt = sealReceipt
  preparation : prepared.preparation = preparationReceipt a receiptUuid sealReceipt
  sequence : prepared.preparationJournalSequence = record.journalSequence
  capabilitySequence :
    prepared.dispatchCapability.preparationJournalSequence = record.journalSequence

/-- What arming returns for that record. -/
structure ArmedUnder (armed : WindowsUiaDispatchExecutionPermit) : Prop
    extends PreparedRecord a receiptUuid sealReceipt record where
  armedAction : armed.actionId = a
  armedSeal : armed.sealReceipt = sealReceipt
  preparation : armed.preparation = preparationReceipt a receiptUuid sealReceipt
  sequence : armed.preparationJournalSequence = record.journalSequence

end

section
variable {codec : EntryCodec} {t : AttemptTokens} {record : ConsequentialJournalEntry}
  {sh : Shared DispatchWorld} {sessionId : SessionId} {receiptUuid : Uuid}
  {sealReceipt : WindowsUiaDispatchSealReceipt}

/-- **Preparing** ends with the attempt's own capability, or fails. -/
theorem ends_prepareUiaDispatch_own (hothers : OthersApart codec t sh)
    (hexec : ExecutionPast (sh.after 1).state.journal) (io : PreparationIo)
    (ht : t.capabilityRef = io.capabilityRef)
    (sealed : Except WindowsUiaDispatchSealError WindowsUiaDispatchSealReceipt) :
    Ends (prepareUiaDispatch codec sessionId t.actionId sealed io) sh
      (fun prepared sh' => ∃ sealReceipt record, sealed = .ok sealReceipt ∧
        PreparedUnder t.actionId io.receiptUuid sealReceipt record prepared ∧
        OwnsCapability codec t record prepared.dispatchCapability sh')
      (fun _ _ => True) := by
  unfold prepareUiaDispatch recordPreparation
  simp only [ends_bind, ends_mapError, ends_ofExcept, ends_journalCall, ends_reject, implies_true,
    true_and, and_true, ends_pure]
  intro sealReceipt hsealed admission hadmission _
  obtain ⟨⟨hmem, hentry, htransition⟩, ⟨href, haction, hseq, hbound⟩, hexecution, hbefore, hstate⟩ :=
    recordDispatchPrepared_ok hadmission
  have hgrant := hbound.2
  rw [haction] at hgrant
  have hnone := (congrFun hexecution t.actionId).trans (hexec t.actionId hbefore)
  -- the one live grant is that of the capability just returned
  have howns : OwnsCapability codec t admission.entry admission.capability
      (preparedState codec t.actionId (preparationReceipt t.actionId io.receiptUuid sealReceipt)
        io sh) := by
    refine ⟨⟨hothers.after 1, ⟨hstate, .inl ?_, ?_, ?_⟩, hmem⟩, haction, hbound, hnone⟩
    · exact congrArg Option.isSome hgrant
    · intro grant hlive
      obtain rfl := Option.some.inj (hgrant.symm.trans hlive)
      exact href.trans ht.symm
    · intro grant hlive
      cases hnone.symm.trans hlive
  have hkeeps : Keeps (OwnsCapability codec t admission.entry admission.capability)
      (verifyCanonicalPrepared afterPrepareErrors sessionId t.actionId sealReceipt.authority) :=
    looks_verifyCanonicalPrepared.keeps fun _ h => h.next
  exact (hkeeps _ howns).mono
    (fun _ _ h => ⟨sealReceipt, admission.entry, hsealed,
      ⟨⟨hentry, htransition⟩, rfl, rfl, rfl, rfl, hseq⟩, h⟩) fun _ _ _ => trivial

variable {permit : DispatchExecutionPermit}

/-- A minted permit carries the identifier drawn for it. -/
theorem beginDispatch_permitRef {j : ConsequentialJournal} {capability : DispatchPreparedCapability}
    {permitRef : Uuid} (h : (j.beginDispatch capability permitRef).1 = .ok permit) :
    permit.permitRef = permitRef := by
  unfold beginDispatch at h
  simp only at h
  split at h
  · cases h
  split at h
  · cases h
  split at h
  · cases h
  split at h
  · cases h
  split at h
  · cases h
  · cases h
    rfl

/-- **Arming** ends with the attempt's own permit, or fails. -/
theorem ends_armUiaDispatchExecution_own {prepared : WindowsUiaPreparedDispatchReceipt}
    (hprepared : PreparedUnder t.actionId receiptUuid sealReceipt record prepared)
    (h : OwnsCapability codec t record prepared.dispatchCapability sh)
    (revalidated : Except WindowsObserveRuntimeError WindowsUiaBoundDispatchContextReceipt) :
    Ends (armUiaDispatchExecution sessionId prepared revalidated t.permitRef) sh
      (fun armed sh' => ArmedUnder t.actionId receiptUuid sealReceipt record armed ∧
        OwnsPermit codec t record armed.dispatchPermit sh')
      (fun _ _ => True) := by
  have hkeeps : Keeps (OwnsCapability codec t record prepared.dispatchCapability)
      (revalidatedContext sessionId prepared revalidated) :=
    looks_revalidatedContext.keeps fun _ h => h.next
  unfold armUiaDispatchExecution
  rw [ends_bind]
  refine (hkeeps _ h).mono (fun context sh₁ h₁ => ?_) fun _ _ _ => trivial
  have hturn : OwnsCapability codec t record prepared.dispatchCapability (sh₁.after 1) := h₁.next
  obtain ⟨hgone, hcases⟩ := beginDispatch_consumes hturn.bound t.permitRef
  have hentries := entries_of_unrecorded
    (beginDispatch_step codec (sh₁.after 1).state.journal prepared.dispatchCapability t.permitRef)
    rfl
  unfold beginArmed
  simp only [ends_bind, ends_mapError, ends_journalCall, ends_reject, implies_true, true_and,
    and_true, ends_pure]
  intro permit hpermit _
  rcases hcases with ⟨⟨error, herr⟩, -⟩ | ⟨permit', hok, haction, -, hbound⟩
  · rw [herr] at hpermit
    cases hpermit
  obtain rfl : permit' = permit := Except.ok.inj (hok.symm.trans hpermit)
  rw [hturn.actionId] at hgone haction
  have hgrant := hbound.2
  rw [haction] at hgrant
  refine ⟨⟨hprepared.toPreparedRecord, hprepared.preparedAction, hprepared.preparedSeal,
    hprepared.preparation, hprepared.sequence⟩,
    ⟨hturn.others, ⟨?_, .inr ?_, ?_, ?_⟩, ?_⟩, haction, hbound, hgone⟩
  · show recoveryStateFor ((sh₁.after 1).state.journal.beginDispatch _ _).2.entries _ = _
    rw [hentries]
    exact hturn.own.state
  · exact congrArg Option.isSome hgrant
  · intro grant hlive
    cases hgone.symm.trans hlive
  · intro grant hlive
    obtain rfl := Option.some.inj (hgrant.symm.trans hlive)
    exact beginDispatch_permitRef hpermit
  · show record ∈ ((sh₁.after 1).state.journal.beginDispatch _ _).2.entries
    rw [hentries]
    exact hturn.record

/-! ## Up to the executor -/

/-- The action at PREPARED, with no dispatch grant left. -/
structure LeftPrepared (a : Uuid) (j : ConsequentialJournal) : Prop where
  state : recoveryStateFor j.entries a = some .dispatchPrepared
  prepared : j.liveDispatchPrepared a = none
  execution : j.liveDispatchExecution a = none

/-- What consuming the attempt's permit leaves. -/
theorem OwnsPermit.consumed (h : OwnsPermit codec t record permit sh) :
    LeftPrepared t.actionId (sh.state.journal.consumeDispatchPermit permit).2 := by
  obtain ⟨hexecution, hprepared⟩ := consumeDispatchPermit_consumes h.bound
  obtain ⟨-, hun, -⟩ := consumeDispatchPermit_cases sh.state.journal permit
  rw [h.actionId] at hexecution
  refine ⟨?_, (congrFun hprepared t.actionId).trans h.prepared, hexecution⟩
  rw [(hun none).entries]
  exact h.own.state

variable {err : WindowsUiaDispatchExecutionCoordinatorError → Shared DispatchWorld → Prop}

/-- Giving the permit up leaves the action at PREPARED, whatever the call
answers. -/
theorem ends_abandonExecution {α : Type} (h : OwnsPermit codec t record permit sh) {stage : String}
    {e : WindowsUiaDispatchExecutionCoordinatorError} {ok : α → Shared DispatchWorld → Prop}
    (herr : ∀ e sh', LeftPrepared t.actionId sh'.state.journal → err e sh') :
    Ends (abandonExecution permit stage e) sh ok err := by
  have hturn : OwnsPermit codec t record permit (sh.after 1) := h.next
  have hleft := hturn.consumed
  unfold abandonExecution
  rw [ends_bind, ends_mapError, ends_journalCall]
  exact ⟨fun _ _ => herr e _ hleft, fun _ _ => herr _ _ hleft⟩

/-- What `admitted_operation` answers is what the companion file holds. -/
theorem ends_admittedOperation (a : Uuid) :
    Ends (admittedOperation a) sh
      (fun operation sh' => ∀ canonical, operation = some canonical →
        ∃ binding, sh'.state.operationFile a = .ok (some binding) ∧ binding.actionId = a ∧
          binding.operation = canonical)
      (fun _ _ => True) := by
  unfold admittedOperation
  rw [ends_bind, ends_read]
  cases intentJournalSequence (sh.after 1).state.journal.entries a with
  | none => exact fun _ hnone => nomatch hnone
  | some intentSequence =>
    rw [ends_bind, ends_access]
    refine ⟨fun binding hbinding => ?_, fun _ _ => trivial⟩
    cases binding with
    | none => exact fun _ hnone => nomatch hnone
    | some binding =>
      rw [ends_bind, ends_reject]
      refine ⟨fun _ => trivial, fun hgood canonical hcanonical => ?_⟩
      exact ⟨binding, hbinding, not_not.mp (not_or.mp hgood).1, Option.some.inj hcanonical⟩

theorem ends_providerVerb {armed : WindowsUiaDispatchExecutionPermit}
    (h : OwnsPermit codec t record armed.dispatchPermit sh)
    {operation : Except ConsequentialJournalError (Option CanonicalActionOperation)}
    {ok : WindowsUiaPatternDispatchOperation → Shared DispatchWorld → Prop}
    (hok : ∀ canonical verb, operation = .ok (some canonical) →
      providerDispatchOperation canonical armed.sealReceipt.requiredPattern = some verb →
      ok verb sh)
    (herr : ∀ e sh', LeftPrepared t.actionId sh'.state.journal → err e sh') :
    Ends (providerVerb armed operation) sh ok err := by
  rcases operation with error | _ | canonical
  · exact ends_abandonExecution h herr
  · exact ends_abandonExecution h herr
  · unfold providerVerb
    cases hverb : providerDispatchOperation canonical armed.sealReceipt.requiredPattern with
    | none =>
      simp only [hverb]
      exact ends_abandonExecution h herr
    | some verb =>
      simp only [hverb]
      exact ends_pure.mpr (hok canonical verb rfl hverb)

/-- **Up to the executor** the permit is held, and the request is for the verb of
the durable operation. -/
theorem ends_armedExecutionRequest {armed : WindowsUiaDispatchExecutionPermit}
    (h : OwnsPermit codec t record armed.dispatchPermit sh) (dispatchAttemptRef : Uuid) :
    Ends (armedExecutionRequest sessionId armed dispatchAttemptRef) sh
      (fun request sh' => OwnsPermit codec t record armed.dispatchPermit sh' ∧
        ∃ binding verb, sh'.state.operationFile armed.actionId = .ok (some binding) ∧
          binding.actionId = armed.actionId ∧
          providerDispatchOperation binding.operation armed.sealReceipt.requiredPattern =
            some verb ∧
          request = executionRequest armed dispatchAttemptRef verb)
      (fun _ sh' => LeftPrepared t.actionId sh'.state.journal) := by
  have hkeeps : Keeps (OwnsPermit codec t record armed.dispatchPermit)
      (verifyCanonicalPrepared beforeExecutorErrors sessionId armed.actionId
        armed.sealReceipt.authority) :=
    looks_verifyCanonicalPrepared.keeps fun _ h => h.next
  have hreads : Keeps (OwnsPermit codec t record armed.dispatchPermit)
      (admittedOperation armed.actionId) :=
    (looks_admittedOperation _).keeps fun _ h => h.next
  unfold armedExecutionRequest
  rw [ends_bind, ends_attempt]
  refine (hkeeps sh h).mono (fun _ sh₁ h₁ => ?_) fun _ sh₁ h₁ =>
    ends_abandonExecution h₁ fun _ _ hleft => hleft
  simp only
  rw [ends_bind, ends_attempt]
  refine ((hreads sh₁ h₁).and (ends_admittedOperation armed.actionId)).mono
    (fun operation sh₂ h₂ => ?_) fun error sh₂ h₂ => ?_
  · rw [ends_bind]
    refine ends_providerVerb h₂.1 (fun canonical verb hoperation hverb => ?_) fun _ _ hleft => hleft
    obtain ⟨binding, hfile, haction, rfl⟩ := h₂.2 canonical (Except.ok.inj hoperation)
    exact ⟨h₂.1, binding, verb, hfile, haction, hverb, rfl⟩
  · rw [ends_bind]
    exact ends_providerVerb h₂.1 (fun _ _ hnone => nomatch hnone) fun _ _ hleft => hleft

end

/-! ## The executor's calls -/

/-- The request an attempt is sealed over, for a verb. -/
def sealedRequest (a receiptUuid dispatchAttemptRef : Uuid)
    (sealReceipt : WindowsUiaDispatchSealReceipt) (record : ConsequentialJournalEntry)
    (dispatchOperation : WindowsUiaPatternDispatchOperation) :
    WindowsUiaProviderExecutionRequest :=
  { dispatchAttemptRef, actionId := a, preparationJournalSequence := record.journalSequence
    preparationReceiptRef := (preparationReceipt a receiptUuid sealReceipt).receiptRef
    snapshotCutRef := sealReceipt.elementLease.snapshotCutRef
    providerIncarnationRef := sealReceipt.elementLease.providerIncarnationRef
    targetIncarnationRef := sealReceipt.elementLease.targetIncarnationRef
    elementRef := sealReceipt.elementLease.elementRef
    requiredPattern := sealReceipt.requiredPattern, dispatchOperation
    contextRequirements := sealReceipt.contextRequirements }

/-- The companion record of the action is written once: the other tasks leave
it. -/
def OperationKept (a : Uuid) (start : Shared DispatchWorld) : Prop :=
  ∀ n w, (start.others n w).operationFile a = w.operationFile a

/-- The call was made while the journal stood at the attempt's own PREPARED
record, and its request is the sealed one for the verb of the durable
operation. -/
structure AuthorizedCall (start : Shared DispatchWorld) (a receiptUuid dispatchAttemptRef : Uuid)
    (sealReceipt : WindowsUiaDispatchSealReceipt) (call : ExecutorCall) : Prop where
  prepared : recoveryStateFor call.world.journal.entries a = some .dispatchPrepared
  request : ∃ record ∈ call.world.journal.entries,
    PreparedRecord a receiptUuid sealReceipt record ∧
      call.request = sealedRequest a receiptUuid dispatchAttemptRef sealReceipt record
        call.request.dispatchOperation
  operation : OperationKept a start → ∃ binding,
    call.world.operationFile a = .ok (some binding) ∧ binding.actionId = a ∧
      providerDispatchOperation binding.operation sealReceipt.requiredPattern =
        some call.request.dispatchOperation

/-- What holds of the calls an attempt made to the executor, once it has ended. -/
structure AuthorizedCalls (start : Shared DispatchWorld) (a : Uuid)
    (surroundings : VerifiedActionSurroundings) (sh' : Shared DispatchWorld)
    (calls : List ExecutorCall) : Prop where
  atMostOnce : calls.length ≤ 1
  authorized : ∀ call ∈ calls, ∃ sealReceipt, surroundings.sealed = .ok sealReceipt ∧
    AuthorizedCall start a surroundings.preparation.receiptUuid surroundings.dispatchAttemptRef
      sealReceipt call
  kept : ∀ call ∈ calls, call.world.journal.entries <+: sh'.state.journal.entries

/-- An entry that records the action's dispatch. -/
structure LinearizedEntry (a : Uuid) (entry : ConsequentialJournalEntry) : Prop where
  actionId : entry.actionId = a
  transition : ∃ linearization, entry.transition = .dispatchLinearized linearization

section
variable {codec : EntryCodec} {t : AttemptTokens} {record : ConsequentialJournalEntry}
  {start sh : Shared DispatchWorld} {sessionId : SessionId} {receiptUuid : Uuid}
  {sealReceipt : WindowsUiaDispatchSealReceipt} {armed : WindowsUiaDispatchExecutionPermit}
  {surroundings : VerifiedActionSurroundings} {a : Uuid}

theorem AuthorizedCalls.none (sh' : Shared DispatchWorld) :
    AuthorizedCalls start a surroundings sh' [] :=
  ⟨Nat.zero_le 1, fun _ h => (nomatch h), fun _ h => (nomatch h)⟩

/-- Nothing that comes later takes a call's evidence back. -/
theorem AuthorizedCalls.later {sh' : Shared DispatchWorld} {calls : List ExecutorCall}
    (h : AuthorizedCalls start a surroundings sh calls) (hlater : Later codec sh sh') :
    AuthorizedCalls start a surroundings sh' calls :=
  ⟨h.atMostOnce, h.authorized, fun call hcall => (h.kept call hcall).trans hlater.entries⟩

/-- The one call, made from where the request was built. -/
theorem authorizedCall_of_request (hlater : Later codec start sh)
    (harmed : ArmedUnder t.actionId receiptUuid sealReceipt record armed)
    (h : OwnsPermit codec t record armed.dispatchPermit sh) (dispatchAttemptRef : Uuid)
    {binding : DurableCanonicalActionOperationBinding} {verb : WindowsUiaPatternDispatchOperation}
    (hfile : sh.state.operationFile armed.actionId = .ok (some binding))
    (haction : binding.actionId = armed.actionId)
    (hverb : providerDispatchOperation binding.operation armed.sealReceipt.requiredPattern =
      some verb) :
    AuthorizedCall start t.actionId receiptUuid dispatchAttemptRef sealReceipt
      { request := executionRequest armed dispatchAttemptRef verb, world := (sh.after 1).state } := by
  have hturn : OwnsPermit codec t record armed.dispatchPermit (sh.after 1) := h.next
  rw [harmed.armedAction] at hfile haction
  rw [harmed.armedSeal] at hverb
  refine ⟨hturn.own.state, ⟨record, hturn.record, harmed.toPreparedRecord, ?_⟩, fun hkept => ?_⟩
  · show executionRequest armed dispatchAttemptRef verb =
      sealedRequest t.actionId receiptUuid dispatchAttemptRef sealReceipt record verb
    unfold executionRequest sealedRequest
    rw [harmed.armedAction, harmed.armedSeal, harmed.preparation, harmed.sequence]
  · obtain ⟨n, hn⟩ := hlater.others
    refine ⟨binding, ?_, haction, hverb⟩
    show (sh.others 0 sh.state).operationFile t.actionId = _
    rw [hn]
    exact (hkept (0 + n) sh.state).trans hfile

theorem ends_acceptedReceipt {request : WindowsUiaProviderExecutionRequest}
    {permit : DispatchExecutionPermit} (h : OwnsPermit codec t record permit sh)
    (answer : Except String WindowsUiaProviderExecutionReceipt) :
    Ends (acceptedReceipt permit request answer) sh
      (fun receipt sh' => OwnsPermit codec t record permit sh' ∧
        receipt.toWindowsUiaProviderExecutionRequest = request)
      (fun _ sh' => LeftPrepared t.actionId sh'.state.journal) := by
  rcases answer with message | receipt
  · exact ends_abandonExecution h fun _ _ hleft => hleft
  unfold acceptedReceipt
  simp only
  split
  · exact ends_abandonExecution h fun _ _ hleft => hleft
  rename_i hmatches
  split
  · exact ends_abandonExecution h fun _ _ hleft => hleft
  · exact ends_pure.mpr ⟨h, by simpa [providerReceiptMatchesRequest] using hmatches⟩

/-- **The record of the outcome**: durable, or the action is left at PREPARED. -/
theorem ends_linearizeExecution (harmed : armed.actionId = t.actionId)
    (h : OwnsPermit codec t record armed.dispatchPermit sh)
    (receipt : WindowsUiaProviderExecutionReceipt) (io : AppendIo) :
    Ends (linearizeExecution codec armed receipt io) sh
      (fun result sh' => result.providerReceipt = receipt ∧
        LinearizedEntry t.actionId result.journalEntry ∧
        result.journalEntry ∈ sh'.state.journal.entries)
      (fun _ sh' => LeftPrepared t.actionId sh'.state.journal) := by
  have hturn : OwnsPermit codec t record armed.dispatchPermit (sh.after 1) := h.next
  have hconsumed := hturn.consumed
  unfold linearizeExecution
  simp only [ends_bind, ends_mapError, ends_journalCall, ends_reject, ends_pure]
  unfold recordDispatchLinearized
  rcases hres : (sh.after 1).state.journal.consumeDispatchPermit armed.dispatchPermit
    with ⟨error | u, j₁⟩ <;> rw [hres] at hconsumed
  · refine ⟨fun _ hok => ?_, fun _ _ => hconsumed⟩
    cases hok
  simp only
  obtain ⟨hsame, hcases⟩ := append_cases codec j₁ armed.dispatchPermit.actionId
    (.dispatchLinearized (dispatchLinearization receipt)) io
  rcases hcases with ⟨error, herr, hun⟩ | ⟨hok, hrec⟩
  · refine ⟨fun entry hentry => ?_, fun _ _ => ⟨?_, ?_, ?_⟩⟩
    · rw [herr] at hentry
      cases hentry
    · show recoveryStateFor (j₁.appendValidatedLocked codec _ _ io).2.entries _ = _
      rw [hun.entries]
      exact hconsumed.state
    · exact (congrFun hsame.prepared _).trans hconsumed.prepared
    · exact (congrFun hsame.execution _).trans hconsumed.execution
  · refine ⟨fun entry hentry => ?_, fun error herr => ?_⟩
    · obtain rfl := Except.ok.inj (hok.symm.trans hentry)
      have haction : (j₁.nextEntry armed.dispatchPermit.actionId
          (.dispatchLinearized (dispatchLinearization receipt)) io).actionId = armed.actionId :=
        hturn.actionId.trans harmed.symm
      refine ⟨fun hbad => ?_, fun _ => ⟨trivial, ⟨haction.trans harmed, _, rfl⟩, ?_⟩⟩
      -- the entry is the one just asked for
      · rcases hbad with hbad | hbad
        · exact absurd haction hbad
        · exact absurd rfl hbad
      · show _ ∈ (j₁.appendValidatedLocked codec _ _ io).2.entries
        rw [hrec.entries]
        exact mem_append_right _ (mem_singleton_self _)
    · rw [hok] at herr
      cases herr

/-- **The armed execution**: one authorized call at most, and its outcome
durable; or the action is left at PREPARED with no grant. -/
theorem ends_executeArmedUiaDispatch (hothers : OthersRun codec start)
    (hlater : Later codec start sh) (hsealed : surroundings.sealed = .ok sealReceipt)
    (harmed : ArmedUnder t.actionId surroundings.preparation.receiptUuid sealReceipt record armed)
    (h : OwnsPermit codec t record armed.dispatchPermit sh) :
    Ends (executeArmedUiaDispatch codec sessionId armed surroundings.executor
        surroundings.dispatchAttemptRef surroundings.linearization) sh
      (fun result sh' => Later codec start sh' ∧
        AuthorizedCalls start t.actionId surroundings sh' result.2 ∧
        result.1.providerReceipt.actionId = t.actionId ∧
        LinearizedEntry t.actionId result.1.journalEntry ∧
        result.1.journalEntry ∈ sh'.state.journal.entries)
      (fun failure sh' => AuthorizedCalls start t.actionId surroundings sh' failure.2 ∧
        LeftPrepared t.actionId sh'.state.journal) := by
  unfold executeArmedUiaDispatch
  rw [ends_bind, ends_mapError]
  refine ((keeps_later_armedExecutionRequest hothers sessionId armed _ sh hlater).and
    (ends_armedExecutionRequest h _)).mono (fun request sh₁ h₁ => ?_)
      fun error sh' h' => ⟨.none sh', h'.2⟩
  obtain ⟨hlater₁, howns, binding, verb, hfile, haction, hverb, rfl⟩ := h₁
  rw [ends_bind, ends_read]
  have hcall := authorizedCall_of_request hlater₁ harmed howns surroundings.dispatchAttemptRef
    hfile haction hverb
  generalize hdef : ({ request := _, world := _ } : ExecutorCall) = call at hcall
  have hworld : call.world = (sh₁.after 1).state := by rw [← hdef]
  have hcalls : ∀ sh', Later codec (sh₁.after 1) sh' →
      AuthorizedCalls start t.actionId surroundings sh' [call] := by
    intro sh' hsh'
    refine ⟨Nat.le_refl 1, fun c hc => ?_, fun c hc => ?_⟩
    · obtain rfl := mem_singleton.mp hc
      exact ⟨sealReceipt, hsealed, hcall⟩
    · obtain rfl := mem_singleton.mp hc
      rw [hworld]
      exact hsh'.entries
  have hturn : OwnsPermit codec t record armed.dispatchPermit (sh₁.after 1) := howns.next
  have hlater₂ : Later codec start (sh₁.after 1) := hlater₁.next hothers
  have hothers₂ : OthersRun codec (sh₁.after 1) := hlater₂.othersRun hothers
  simp only
  rw [ends_bind, ends_mapError]
  refine ((keeps_later_acceptedReceipt hothers₂ _ _ _ _ (.refl codec _)).and
    (ends_acceptedReceipt hturn _)).mono (fun receipt sh₃ h₃ => ?_)
      fun error sh' h' => ⟨hcalls sh' h'.1, h'.2⟩
  obtain ⟨hlater₃, howns₃, hrequest⟩ := h₃
  rw [ends_bind, ends_mapError]
  refine ((keeps_later_linearizeExecution hothers₂ _ _ _ _ hlater₃).and
    (ends_linearizeExecution harmed.armedAction howns₃ receipt _)).mono
      (fun result sh₄ h₄ => ?_) fun error sh' h' => ⟨hcalls sh' h'.1, h'.2⟩
  obtain ⟨hlater₄, hreceipt, hlinearized, hmem⟩ := h₄
  refine ⟨hlater₂.trans hlater₄, hcalls sh₄ hlater₄, ?_, hlinearized, hmem⟩
  rw [hreceipt, congrArg WindowsUiaProviderExecutionRequest.actionId hrequest]
  exact harmed.armedAction

end

/-! ## What a commit rests on -/

/-- The evidence of a commit: the dispatch was recorded when the observation was
authorized, and the receipt that verifies everything is of that observation. -/
structure CommitEvidence (codec : EntryCodec) (a : Uuid)
    (dispatchJournalSequence reconciliationJournalSequence : Nat) (final : ConsequentialJournal)
    (dispatch entry : ConsequentialJournalEntry) (receipt : ActionPostconditionReceipt)
    (observing : ConsequentialJournal) (observationRef : Uuid)
    (permit : ConsequentialPostconditionObservationPermit) : Prop where
  dispatched : LinearizedEntry a dispatch ∧ dispatch.journalSequence = dispatchJournalSequence
  dispatchedBefore : dispatch ∈ observing.entries
  authorized : (observing.beginPostconditionObservation a observationRef).1 = .ok permit
  continued : ∃ tr, Run (CallStep codec)
    (observing.beginPostconditionObservation a observationRef).2 tr final
  recorded : entry ∈ final.entries
  recordedReceipt : entry.actionId = a ∧ entry.journalSequence = reconciliationJournalSequence ∧
    entry.transition = .postconditionReceiptRecorded receipt
  cut : receipt.observationSnapshotCutRef = permit.snapshotCutRef
  verdict : receipt.verdict.worldOutcome = .verifiedExpected

/-- A reported commit is of the action, verified, and has its evidence. -/
def CommitJustified (codec : EntryCodec) (a : Uuid) (final : ConsequentialJournal)
    (outcome : WindowsUiaVerifiedExecutionOutcome) : Prop :=
  ∀ b worldOutcome dispatchSequence reconciliationSequence commitSequence,
    outcome = .committed b worldOutcome dispatchSequence reconciliationSequence commitSequence →
    b = a ∧ worldOutcome = .verifiedExpected ∧
      ∃ dispatch entry receipt observing observationRef permit,
        CommitEvidence codec a dispatchSequence reconciliationSequence final dispatch entry receipt
          observing observationRef permit

section
variable {codec : EntryCodec} {start sh : Shared DispatchWorld} {a : Uuid}

variable {permit : ConsequentialPostconditionObservationPermit} {j : ConsequentialJournal}

theorem beginPostconditionObservation_actionId {observationRef : Uuid}
    (h : (j.beginPostconditionObservation a observationRef).1 = .ok permit) :
    permit.actionId = a := by
  unfold beginPostconditionObservation at h
  simp only at h
  split at h
  · cases h
  split at h
  · cases h
  split at h
  · cases h
  split at h
  · cases h
  split at h
  · cases h
  · cases h
    rfl

theorem completePostconditionObservation_ok {snapshot : ReconciliationSnapshotReceipt}
    {observation : ConsequentialPostconditionObservationReceipt}
    (h : (j.completePostconditionObservation permit snapshot).1 = .ok observation) :
    observation.actionId = permit.actionId ∧
      observation.snapshotCutRef = permit.snapshotCutRef := by
  unfold completePostconditionObservation at h
  rcases hres : j.consumeObservationPermit permit with ⟨error | u, j₁⟩ <;> rw [hres] at h
  · cases h
  · simp only [bindObservedSnapshot, rejectIf_bind_eq_ok, not_not, Except.ok.injEq] at h
    obtain ⟨-, -, hcut, -, rfl⟩ := h
    exact ⟨rfl, hcut⟩

theorem ends_capture (surroundings : CaptureSurroundings)
    (permit : ConsequentialPostconditionObservationPermit) :
    Ends (capturePostconditionObservationWithSnapshot surroundings permit) sh
      (fun capture _ => capture.observationReceipt.actionId = permit.actionId ∧
        capture.observationReceipt.snapshotCutRef = permit.snapshotCutRef)
      (fun _ _ => True) := by
  unfold capturePostconditionObservationWithSnapshot
  rw [ends_bind, ends_read]
  rcases capturedSnapshot surroundings permit with failure | ⟨snapshot, receipt⟩
  · simp only [abandonPostconditionCapture, ends_bind, ends_mapError, ends_journalCall, ends_fail,
      implies_true, and_self]
  · simp only [ends_bind, ends_mapError, ends_journalCall, ends_pure, implies_true, and_true]
    exact fun observation hobservation => completePostconditionObservation_ok hobservation

/-- **The observation is authorized after what `start` holds.** -/
theorem ends_observeDispatched (hothers : OthersRun codec start) (hlater : Later codec start sh)
    (surroundings : CaptureSurroundings) (observationRef : Uuid) :
    Ends (observeDispatched surroundings a observationRef) sh
      (fun capture sh' => ∃ (observing : ConsequentialJournal)
          (permit : ConsequentialPostconditionObservationPermit),
        start.state.journal.entries <+: observing.entries ∧
        (observing.beginPostconditionObservation a observationRef).1 = .ok permit ∧
        (∃ tr, Run (CallStep codec)
          (observing.beginPostconditionObservation a observationRef).2 tr sh'.state.journal) ∧
        capture.observationReceipt.actionId = a ∧
        capture.observationReceipt.snapshotCutRef = permit.snapshotCutRef)
      (fun _ _ => True) := by
  have hturn : Later codec start (sh.after 1) := hlater.next hothers
  unfold observeDispatched
  rw [ends_bind, ends_mapError, ends_journalCall]
  refine ⟨fun permit hpermit => ?_, fun _ _ => trivial⟩
  have haction := beginPostconditionObservation_actionId hpermit
  generalize hbegun : (sh.after 1).set { (sh.after 1).state with
    journal := ((sh.after 1).state.journal.beginPostconditionObservation a observationRef).2 } = begun
  have hjournal : begun.state.journal =
      ((sh.after 1).state.journal.beginPostconditionObservation a observationRef).2 := by
    rw [← hbegun]
    rfl
  have hothers' : OthersRun codec begun := by
    rw [← hbegun]
    exact hturn.othersRun hothers
  rw [ends_bind, ends_mapError]
  refine (((lasting_later hothers').capture surroundings permit begun (.refl codec begun)).and
    (ends_capture surroundings permit)).mono (fun capture sh' h' => ?_) fun _ _ _ => trivial
  obtain ⟨hlater', haction', hcut⟩ := h'
  rw [ends_bind, ends_reject]
  refine ⟨fun _ => trivial, fun _ => ⟨_, permit, hturn.entries, hpermit, ?_,
    haction'.trans haction, hcut⟩⟩
  rw [← hjournal]
  exact hlater'.run

/-- A draft repeats its observation. -/
theorem reconciliationDraftFor_ok {snapshots : SessionId → Option ReconciliationSnapshotReceipt}
    {receipt : ConsequentialPostconditionReconciliationReceipt}
    {draft : ActionPostconditionReceiptDraft}
    (h : reconciliationDraftFor snapshots j receipt = .ok draft) :
    draft.actionId = receipt.observation.actionId ∧
      draft.observationSnapshotCutRef = receipt.observation.snapshotCutRef := by
  unfold reconciliationDraftFor at h
  simp only [okOr_bind_eq_ok, rejectIf_bind_eq_ok] at h
  obtain ⟨envelope, -, -, -, -, snapshot, -, -, -, h⟩ := h
  obtain ⟨expected, -, h⟩ := bind_eq_ok.mp h
  obtain ⟨observed, -, h⟩ := bind_eq_ok.mp h
  cases h
  exact ⟨rfl, rfl⟩

theorem recordActionPostconditionReceipt_ok {draft : ActionPostconditionReceiptDraft}
    {io : AppendIo} {entry : ConsequentialJournalEntry} {receipt : ActionPostconditionReceipt}
    (h : (j.recordActionPostconditionReceipt codec draft io).1 = .ok (entry, receipt)) :
    entry ∈ (j.recordActionPostconditionReceipt codec draft io).2.entries ∧
      entry.actionId = draft.actionId ∧
      entry.transition = .postconditionReceiptRecorded (draft.complete j.nextSequence) := by
  rw [recordActionPostconditionReceipt_snd]
  unfold recordActionPostconditionReceipt at h
  simp only at h
  obtain ⟨-, hcases⟩ := append_cases codec j draft.actionId
    (.postconditionReceiptRecorded (draft.complete j.nextSequence)) io
  rcases hres : j.appendValidatedLocked codec draft.actionId
    (.postconditionReceiptRecorded (draft.complete j.nextSequence)) io with ⟨result, j₁⟩
  rw [hres] at hcases h
  rcases hcases with ⟨error, herr, -⟩ | ⟨hok, hrec⟩
  · simp only at herr
    subst herr
    cases h
  · simp only at hok
    subst hok
    obtain ⟨rfl, -⟩ := Prod.mk.inj (Except.ok.inj h)
    refine ⟨?_, rfl, rfl⟩
    rw [hrec.entries]
    exact mem_append_right _ (mem_singleton_self _)

/-- **A reconciliation's outcome is the verdict of the receipt it recorded.** -/
theorem ends_reconcileSetValue (receipt : ConsequentialPostconditionReconciliationReceipt)
    (io : AppendIo) :
    Ends (reconcileSetValue codec receipt io) sh
      (fun result sh' => ∃ recorded : ActionPostconditionReceipt,
        result.journalEntry ∈ sh'.state.journal.entries ∧
        result.journalEntry.actionId = receipt.observation.actionId ∧
        result.journalEntry.transition = .postconditionReceiptRecorded recorded ∧
        recorded.observationSnapshotCutRef = receipt.observation.snapshotCutRef ∧
        recorded.verdict.worldOutcome = result.worldOutcome)
      (fun _ _ => True) := by
  unfold reconcileSetValue
  simp only [ends_bind, ends_read, ends_ofExcept, ends_mapError, ends_journalCall, ends_pure,
    implies_true, and_true]
  rintro draft hdraft ⟨entry, recorded⟩ hrecorded
  obtain ⟨haction, hcut⟩ := reconciliationDraftFor_ok hdraft
  obtain ⟨hmem, hentry, htransition⟩ := recordActionPostconditionReceipt_ok hrecorded
  exact ⟨_, hmem, hentry.trans haction, htransition, hcut, rfl⟩

theorem ends_commitVerified (dispatch : WindowsUiaDispatchVerificationContext)
    (reconciliation : ConsequentialPostconditionReconciliationResult) (io : AppendIo) :
    Ends (commitVerified codec dispatch reconciliation io) sh
      (fun outcome _ => ∀ b worldOutcome dispatchSequence reconciliationSequence commitSequence,
        outcome = .committed b worldOutcome dispatchSequence reconciliationSequence
          commitSequence →
        b = dispatch.actionId ∧ worldOutcome = .verifiedExpected ∧
          reconciliation.worldOutcome = .verifiedExpected ∧
          dispatchSequence = dispatch.dispatchJournalSequence ∧
          reconciliationSequence = reconciliation.journalEntry.journalSequence)
      (fun _ _ => True) := by
  unfold commitVerified
  simp only
  split
  · rename_i hverified
    simp only [ends_bind, ends_mapError, ends_journalCall, ends_pure, implies_true, and_true]
    intro commit _ b worldOutcome d r c hcommitted
    cases hcommitted
    exact ⟨rfl, hverified.1, hverified.1, rfl, rfl⟩
  · rw [ends_pure]
    intro b worldOutcome d r c hcommitted
    cases hcommitted

/-- **The verification commits only what a fresh observation verified.** -/
theorem ends_completeUiaDispatchVerification (hothers : OthersRun codec sh)
    {entry : ConsequentialJournalEntry} (hentry : LinearizedEntry a entry)
    (hmem : entry ∈ sh.state.journal.entries) {dispatch : WindowsUiaDispatchVerificationContext}
    (haction : dispatch.actionId = a)
    (hsequence : dispatch.dispatchJournalSequence = entry.journalSequence)
    (surroundings : CaptureSurroundings) (verifier : WindowsUiaPostconditionVerifier)
    (sessionId : SessionId) (io : VerificationIo) :
    Ends (completeUiaDispatchVerification codec surroundings verifier sessionId dispatch io) sh
      (fun outcome sh' => CommitJustified codec a sh'.state.journal outcome)
      (fun _ _ => True) := by
  have hnot : ∀ {outcome : WindowsUiaVerifiedExecutionOutcome} {final : ConsequentialJournal},
      (∀ b o d r c, outcome ≠ .committed b o d r c) → CommitJustified codec a final outcome :=
    fun hne b o d r c hcommitted => absurd hcommitted (hne b o d r c)
  have hturn : Later codec sh (sh.after 1) := later_next hothers
  unfold completeUiaDispatchVerification recoveryState
  simp only
  rw [ends_bind, ends_read]
  split
  · exact ends_pure.mpr (hnot (by intro b o d r c h; cases h))
  rw [ends_bind, ends_reject]
  refine ⟨fun _ => trivial, fun _ => ?_⟩
  rw [ends_bind, haction]
  refine ((keeps_later_observeDispatched hothers surroundings a _ _ hturn).and
    (ends_observeDispatched hothers hturn surroundings io.observationRef)).mono
      (fun capture sh₁ h₁ => ?_) fun _ _ _ => trivial
  obtain ⟨hlater₁, observing, permit, hbefore, hpermit, hrun, hcaptured, hcut⟩ := h₁
  have hothers₁ : OthersRun codec sh₁ := hlater₁.othersRun hothers
  rw [ends_bind]
  refine (keeps_later_verifierEvidence hothers₁ verifier sessionId a capture.snapshot sh₁
    (.refl codec sh₁)).mono (fun postconditions sh₂ hlater₂ => ?_) fun _ _ _ => trivial
  rw [ends_bind, ends_mapError]
  refine (((lasting_later hothers₁).reconcileSetValue _ io.reconciliation sh₂ hlater₂).and
    (ends_reconcileSetValue _ io.reconciliation)).mono (fun reconciliation sh₃ h₃ => ?_)
      fun _ _ _ => trivial
  obtain ⟨hlater₃, receipt, hrecorded, hactionId, htransition, hobserved, hverdict⟩ := h₃
  have hothers₃ : OthersRun codec sh₃ := hlater₃.othersRun hothers₁
  refine ((keeps_later_commitVerified hothers₃ dispatch reconciliation io.commit sh₃
    (.refl codec sh₃)).and (ends_commitVerified dispatch reconciliation io.commit)).mono
      (fun outcome sh₄ h₄ => ?_) fun _ _ _ => trivial
  obtain ⟨hlater₄, hcommit⟩ := h₄
  intro b worldOutcome d r c hcommitted
  obtain ⟨hb, houtcome, hverified, hd, hr⟩ := hcommit b worldOutcome d r c hcommitted
  refine ⟨hb.trans haction, houtcome, entry, reconciliation.journalEntry, receipt, observing,
    io.observationRef, permit, ?_⟩
  obtain ⟨tr, hrun⟩ := hrun
  obtain ⟨tr', hrun'⟩ := (hlater₃.trans hlater₄).run
  exact
    { dispatched := ⟨hentry, (hd.trans hsequence).symm⟩, dispatchedBefore := hbefore.subset hmem
      authorized := hpermit, continued := ⟨_, Run.append_iff.mpr ⟨_, hrun, hrun'⟩⟩
      recorded := hlater₄.entries.subset hrecorded
      recordedReceipt := ⟨hactionId.trans hcaptured, hr.symm, htransition⟩
      cut := hobserved.trans hcut, verdict := hverdict.trans hverified }

/-- The verification has errors of its own only. -/
theorem completeUiaDispatchVerification_error (surroundings : CaptureSurroundings)
    (verifier : WindowsUiaPostconditionVerifier) (sessionId : SessionId)
    (dispatch : WindowsUiaDispatchVerificationContext) (io : VerificationIo) :
    FailsWith (fun e => ∀ error, e ≠ .dispatch error)
      (completeUiaDispatchVerification codec surroundings verifier sessionId dispatch io) := by
  refine (failsWith_read _).bind fun state => ?_
  split
  · exact failsWith_pure _
  have hobserve : FailsWith (fun e => ∀ error, e ≠ .dispatch error)
      (observeDispatched surroundings dispatch.actionId io.observationRef) :=
    (failsWith_mapError _ (by intro e error h; cases h)).bind fun _ =>
      (failsWith_mapError _ (by intro e error h; cases h)).bind fun _ =>
        (failsWith_reject _ (by intro error h; cases h)).bind fun _ => failsWith_pure _
  have hevidence : ∀ snapshot, FailsWith (fun e => ∀ error, e ≠ .dispatch error)
      (verifierEvidence verifier sessionId dispatch.actionId snapshot) := fun snapshot =>
    (failsWith_read _).bind fun _ => (failsWith_ofOption _ (by intro error h; cases h)).bind
      fun _ => (failsWith_reject _ (by intro error h; cases h)).bind fun _ =>
        failsWith_mapError _ (by intro e error h; cases h)
  have hcommit : ∀ reconciliation, FailsWith (fun e => ∀ error, e ≠ .dispatch error)
      (commitVerified codec dispatch reconciliation io.commit) := by
    intro reconciliation
    unfold commitVerified
    simp only
    split
    · exact (failsWith_mapError _ (by intro e error h; cases h)).bind fun _ => failsWith_pure _
    · exact failsWith_pure _
  exact (failsWith_reject _ (by intro error h; cases h)).bind fun _ => hobserve.bind
    fun capture => (hevidence _).bind fun _ =>
      (failsWith_mapError _ (by intro e error h; cases h)).bind hcommit

end

/-- An action is prepared by one entry only. -/
theorem prepares_unique {mode : TransitionValidationMode}
    {entries : List ConsequentialJournalEntry} {a : Uuid} {e e' : ConsequentialJournalEntry}
    (h : History mode entries) (he : e ∈ entries) (he' : e' ∈ entries)
    (hp : prepares a e = true) (hp' : prepares a e' = true) : e = e' := by
  induction h with
  | nil => cases he
  | @snoc entries last hist _ _ hadm ih =>
    -- what prepares the action last finds nothing that prepared it before
    have hfirst : ∀ f ∈ entries, prepares a f = true → prepares a last = true → False := by
      intro f hf hfp hlast
      have hpast := beforePrepared_of_prepares hist hf hfp
      obtain ⟨ha, htr⟩ := Bool.and_eq_true_iff.mp hlast
      obtain rfl : last.actionId = a := by simpa using ha
      generalize last.transition = tr at hadm htr
      cases hadm with
      | prepared hs _ =>
        rw [hs] at hpast
        cases hpast
      | _ => cases htr
    rcases mem_append.mp he with hold | hnew <;>
      rcases mem_append.mp he' with hold' | hnew'
    · exact ih hold hold'
    · rw [mem_singleton.mp hnew'] at hp'
      exact (hfirst e hold hp hp').elim
    · rw [mem_singleton.mp hnew] at hp
      exact (hfirst e' hold' hp' hp).elim
    · exact (mem_singleton.mp hnew).trans (mem_singleton.mp hnew').symm

theorem PreparedRecord.prepares {a receiptUuid : Uuid}
    {sealReceipt : WindowsUiaDispatchSealReceipt} {record : ConsequentialJournalEntry}
    (h : PreparedRecord a receiptUuid sealReceipt record) : prepares a record = true := by
  unfold Localview.prepares
  rw [h.actionId, h.transition]
  simp

/-! ## The whole attempt -/

def VerifiedActionSurroundings.tokens (surroundings : VerifiedActionSurroundings) (a : Uuid) :
    AttemptTokens :=
  { actionId := a, capabilityRef := surroundings.preparation.capabilityRef
    permitRef := surroundings.permitRef }

section
variable {codec : EntryCodec} {sh : Shared DispatchWorld} {a : Uuid} {sessionId : SessionId}
  {surroundings : VerifiedActionSurroundings}

theorem ends_executeArmedUiaDispatchVerified {start : Shared DispatchWorld}
    {record : ConsequentialJournalEntry} {sealReceipt : WindowsUiaDispatchSealReceipt}
    {armed : WindowsUiaDispatchExecutionPermit} (hothers : OthersRun codec start)
    (hlater : Later codec start sh) (hsealed : surroundings.sealed = .ok sealReceipt)
    (harmed : ArmedUnder a surroundings.preparation.receiptUuid sealReceipt record armed)
    (h : OwnsPermit codec (surroundings.tokens a) record armed.dispatchPermit sh) :
    Ends (executeArmedUiaDispatchVerified codec sessionId armed surroundings) sh
      (fun result sh' => AuthorizedCalls start a surroundings sh' result.2 ∧
        CommitJustified codec a sh'.state.journal result.1)
      (fun failure sh' => AuthorizedCalls start a surroundings sh' failure.2 ∧
        ∀ e, failure.1 = .dispatch e → LeftPrepared a sh'.state.journal) := by
  unfold executeArmedUiaDispatchVerified
  rw [ends_bind, ends_mapError]
  refine (ends_executeArmedUiaDispatch hothers hlater hsealed harmed h).mono
    (fun result sh₁ h₁ => ?_) fun failure sh₁ h₁ => ⟨h₁.1, fun _ _ => h₁.2⟩
  obtain ⟨hlater₁, hcalls, haction, hlinearized, hmem⟩ := h₁
  have hothers₁ : OthersRun codec sh₁ := hlater₁.othersRun hothers
  simp only
  rw [ends_bind, ends_mapError]
  refine (((keeps_later_completeUiaDispatchVerification hothers₁ _ _ _ _ _ sh₁
    (.refl codec sh₁)).and (ends_completeUiaDispatchVerification hothers₁ hlinearized hmem haction
      rfl _ _ _ _)).and (completeUiaDispatchVerification_error _ _ _ _ _ sh₁)).mono
        (fun outcome sh₂ h₂ => ⟨hcalls.later h₂.1.1, h₂.1.2⟩)
        fun failure sh₂ h₂ => ⟨hcalls.later h₂.1.1, fun e he => absurd he (h₂.2 e)⟩

/-- **One attempt**, from any state of a journal that was opened. -/
theorem ends_executeVerifiedCanonicalUiaAction (sessionId : SessionId)
    (hothers : OthersApart codec (surroundings.tokens a) sh)
    (hexec : ∀ n, ExecutionPast (sh.after n).state.journal) :
    Ends (executeVerifiedCanonicalUiaAction codec sessionId a surroundings) sh
      (fun result sh' => AuthorizedCalls sh a surroundings sh' result.2 ∧
        CommitJustified codec a sh'.state.journal result.1)
      (fun failure sh' => AuthorizedCalls sh a surroundings sh' failure.2 ∧
        ∀ e, failure.1 = .execute (.dispatch e) → LeftPrepared a sh'.state.journal) := by
  have hruns := hothers.run
  unfold executeVerifiedCanonicalUiaAction external
  rw [ends_bind, ends_mapError, ends_access]
  refine ⟨fun u _ => ?_, fun message _ => ⟨.none _, fun e he => nomatch he⟩⟩
  have hturn : Later codec sh (sh.after 1) := later_next hruns
  have happart : OthersApart codec (surroundings.tokens a) (sh.after 1) := hothers.after 1
  show Ends _ (sh.after 1) _ _
  rw [ends_bind, ends_mapError]
  refine ((keeps_later_prepareUiaDispatch hruns sessionId a surroundings.sealed
    surroundings.preparation _ hturn).and (ends_prepareUiaDispatch_own happart (hexec 2)
      surroundings.preparation rfl surroundings.sealed)).mono (fun prepared sh₁ h₁ => ?_)
        fun _ sh₁ _ => ⟨.none sh₁, fun e he => nomatch he⟩
  obtain ⟨hlater₁, sealReceipt, record, hsealed, hprepared, howns⟩ := h₁
  rw [ends_bind, ends_mapError]
  refine ((keeps_later_armUiaDispatchExecution hruns sessionId prepared
    (surroundings.revalidated prepared) surroundings.permitRef _ hlater₁).and
      (ends_armUiaDispatchExecution_own hprepared howns _)).mono (fun armed sh₂ h₂ => ?_)
        fun _ sh₂ _ => ⟨.none sh₂, fun e he => nomatch he⟩
  obtain ⟨hlater₂, harmed, hpermit⟩ := h₂
  rw [ends_mapError]
  refine (ends_executeArmedUiaDispatchVerified hruns hlater₂ hsealed harmed hpermit).mono
    (fun _ _ h₃ => h₃) fun failure sh₃ h₃ => ⟨h₃.1, fun e he => ?_⟩
  exact h₃.2 e (WindowsUiaVerifiedActionCoordinatorError.execute.inj he)

/-- The attempt goes on from where it starts. -/
theorem keeps_later_executeVerifiedCanonicalUiaAction (hothers : OthersRun codec sh) :
    Keeps (Later codec sh) (executeVerifiedCanonicalUiaAction codec sessionId a surroundings) := by
  refine ((keeps_later_looks hothers (looks_access fun _ => rfl)).mapError _).bind fun _ =>
    ((keeps_later_prepareUiaDispatch hothers _ _ _ _).mapError _).bind fun prepared =>
      ((keeps_later_armUiaDispatchExecution hothers _ _ _ _).mapError _).bind fun armed =>
        Keeps.mapError ?_ _
  refine Keeps.bind (Keeps.mapError ?_ _) fun result =>
    ((keeps_later_completeUiaDispatchVerification hothers _ _ _ _ _).mapError _).bind fun _ =>
      keeps_pure _
  exact ((keeps_later_armedExecutionRequest hothers _ _ _).mapError _).bind fun request =>
    (keeps_later_looks hothers (looks_read _)).bind fun answer =>
      ((keeps_later_acceptedReceipt hothers _ _ _).mapError _).bind fun receipt =>
        ((keeps_later_linearizeExecution hothers _ _ _).mapError _).bind fun _ => keeps_pure _

end

/-- However an attempt ends, its calls are authorized. -/
theorem authorizedCalls_of_ends {start sh : Shared DispatchWorld} {a : Uuid}
    {surroundings : VerifiedActionSurroundings} {ε α : Type}
    {f : Async DispatchWorld (ε × List ExecutorCall) (α × List ExecutorCall)}
    (h : Ends f sh (fun result sh' => AuthorizedCalls start a surroundings sh' result.2)
      fun failure sh' => AuthorizedCalls start a surroundings sh' failure.2) :
    AuthorizedCalls start a surroundings (f sh).2 (executorCalls (f sh).1) := by
  unfold Ends at h
  rcases hres : f sh with ⟨⟨e, calls⟩ | ⟨x, calls⟩, sh'⟩ <;> rw [hres] at h
  · exact h
  · exact h

/-- A function that keeps to later states ends in one. -/
theorem later_of_keeps {codec : EntryCodec} {start sh : Shared DispatchWorld} {ε α : Type}
    {f : Async DispatchWorld ε α} (hf : Keeps (Later codec start) f) (h : Later codec start sh) :
    Later codec start (f sh).2 := by
  have hends := hf sh h
  unfold Ends at hends
  rcases hres : f sh with ⟨e | x, sh'⟩ <;> rw [hres] at hends
  · exact hends
  · exact hends

/-- PREPARED receipts of two attempts differ. -/
theorem preparationReceipt_display {a receiptUuid receiptUuid' : Uuid}
    {sealReceipt sealReceipt' : WindowsUiaDispatchSealReceipt}
    (h : preparationReceipt a receiptUuid sealReceipt =
      preparationReceipt a receiptUuid' sealReceipt') :
    receiptUuid.display = receiptUuid'.display := by
  have href : "windows-uia:dispatch-prepared:" ++ a.display ++ ":" ++ receiptUuid.display =
      "windows-uia:dispatch-prepared:" ++ a.display ++ ":" ++ receiptUuid'.display :=
    congrArg DispatchPreparationReceipt.receiptRef h
  exact (String.append_right_inj _).mp href

/-- **The verified-action protocol.**  In any run of the journal and whatever the
other tasks do that hold none of the attempt's tokens, the attempt calls the
executor at most once, under its own PREPARED record and with the sealed request;
it reports a commit only on the evidence of an observation authorized after the
dispatch; and a failed execution leaves the action at PREPARED with no grant.  Two
attempts on one action do not both call the executor. -/
theorem verified_action_protocol (codec : EntryCodec) (faults : LoadFaults) (ref : Uuid)
    (file : Bytes) (j₀ : ConsequentialJournal)
    (hopen : (openJournal codec faults ref file).1 = .ok j₀) (tr : List CallLabel)
    (sh : Shared DispatchWorld) (hrun : Run (CallStep codec) j₀ tr sh.state.journal) (a : Uuid)
    (sessionId : SessionId) (surroundings : VerifiedActionSurroundings)
    (hothers : OthersApart codec (surroundings.tokens a) sh) :
    Ends (executeVerifiedCanonicalUiaAction codec sessionId a surroundings) sh
        (fun result sh' => AuthorizedCalls sh a surroundings sh' result.2 ∧
          CommitJustified codec a sh'.state.journal result.1)
        (fun failure sh' => AuthorizedCalls sh a surroundings sh' failure.2 ∧
          ∀ e, failure.1 = .execute (.dispatch e) → LeftPrepared a sh'.state.journal) ∧
      ∀ (tr' : List CallLabel) (sh' : Shared DispatchWorld) (sessionId' : SessionId)
        (surroundings' : VerifiedActionSurroundings),
        Run (CallStep codec) j₀ tr' sh'.state.journal →
        OthersApart codec (surroundings'.tokens a) sh' →
        surroundings.preparation.receiptUuid.display ≠
          surroundings'.preparation.receiptUuid.display →
        ∀ later later' j,
          Run (CallStep codec) (executeVerifiedCanonicalUiaAction codec sessionId a surroundings
            sh).2.state.journal later j →
          Run (CallStep codec) (executeVerifiedCanonicalUiaAction codec sessionId' a surroundings'
            sh').2.state.journal later' j →
          executorCalls (executeVerifiedCanonicalUiaAction codec sessionId a surroundings sh).1 =
              [] ∨
            executorCalls (executeVerifiedCanonicalUiaAction codec sessionId' a surroundings'
              sh').1 = [] := by
  have hpast : ∀ {tr : List CallLabel} {sh : Shared DispatchWorld},
      Run (CallStep codec) j₀ tr sh.state.journal → OthersRun codec sh →
      ∀ n, ExecutionPast (sh.after n).state.journal := by
    intro tr sh hrun hothers n
    have hlater : Later codec sh (sh.after n) := by
      induction n with
      | zero => exact .refl codec sh
      | succ n ih => exact ih.next hothers
    obtain ⟨tr', hturns⟩ := hlater.run
    exact executionPast_of_run hopen (Run.append_iff.mpr ⟨_, hrun, hturns⟩)
  have hends := ends_executeVerifiedCanonicalUiaAction sessionId hothers (hpast hrun hothers.run)
  refine ⟨hends, ?_⟩
  intro tr' sh' sessionId' surroundings' hrun' hothers' hfresh later later' j hlater hlater'
  have hends' := ends_executeVerifiedCanonicalUiaAction sessionId' hothers'
    (hpast hrun' hothers'.run)
  have hcalls := authorizedCalls_of_ends (hends.mono (fun _ _ h => h.1) fun _ _ h => h.1)
  have hcalls' := authorizedCalls_of_ends (hends'.mono (fun _ _ h => h.1) fun _ _ h => h.1)
  by_contra hboth
  obtain ⟨hsome, hsome'⟩ := not_or.mp hboth
  obtain ⟨call, hcall⟩ := exists_mem_of_ne_nil _ hsome
  obtain ⟨call', hcall'⟩ := exists_mem_of_ne_nil _ hsome'
  obtain ⟨sealReceipt, -, hauth⟩ := hcalls.authorized call hcall
  obtain ⟨sealReceipt', -, hauth'⟩ := hcalls'.authorized call' hcall'
  obtain ⟨record, hrecord, hprepared, -⟩ := hauth.request
  obtain ⟨record', hrecord', hprepared', -⟩ := hauth'.request
  -- both PREPARED records are in the later journal, which holds one
  have hmem : record ∈ j.entries :=
    ((hcalls.kept call hcall).trans (entries_prefix_run hlater)).subset hrecord
  have hmem' : record' ∈ j.entries :=
    ((hcalls'.kept call' hcall').trans (entries_prefix_run hlater')).subset hrecord'
  have hhistory : History .replay j.entries := by
    obtain ⟨tr₁, hattempt⟩ := (later_of_keeps (keeps_later_executeVerifiedCanonicalUiaAction
      (a := a) hothers.run) (.refl codec sh)).run
    have hwhole := Run.append_iff.mpr ⟨_, hrun, Run.append_iff.mpr ⟨_, hattempt, hlater⟩⟩
    exact (hwhole.invariant (fun _ _ _ h hs => h.step hs) (continues_of_open hopen).1).history
  have hsame : record = record' :=
    prepares_unique hhistory hmem hmem' hprepared.prepares hprepared'.prepares
  have htransition := hprepared.transition.symm.trans (hsame ▸ hprepared'.transition)
  exact hfresh (preparationReceipt_display
    (ConsequentialJournalTransition.dispatchPrepared.inj htransition))

/-- The snapshot the sample attempt captures once it has dispatched. -/
def dispatchedSnapshot : ReconciliationSnapshotReceipt :=
  { sampleSnapshot (postdispatchCutRef 1 7 4 30) with
    receiptId := "reconcile:windows-observe:postdispatch:" ++ Uuid.display 3 ++ ":" ++
      Uuid.display 7 ++ ":" ++ Uuid.display 32 }

/-- The sample action authorized, to be activated; the other tasks keep the
bridge at the captured snapshot. -/
def activatedShared : Shared DispatchWorld :=
  { state := { sampleShared.state with
      operationFile := fun _ => .ok (some ⟨7, 1, .activate⟩) }
    others := fun _ w => { w with
      bridge := w.bridge.observe 32 3 (.recordReconciliation dispatchedSnapshot) } }

/-- Surroundings in which nothing fails. -/
def soundSurroundings : VerifiedActionSurroundings :=
  { preflight := .ok ()
    sealed := .ok { sampleSeal with requiredPattern := .invoke }
    preparation := samplePreparation
    revalidated := fun prepared => .ok
      { requirements := prepared.sealReceipt.contextRequirements, snapshotCutRef := "cut:1"
        providerIncarnationRef := ⟨"provider:1"⟩, targetIncarnationRef := ⟨"target:1"⟩
        elementRef := sampleSeal.elementLease.elementRef
        observation := ⟨5, 6, some 5, some 6, none, none⟩ }
    permitRef := 22
    dispatchAttemptRef := 23
    executor := fun request => .ok ⟨request, .deliveredToExecutor, .dispatchedFull⟩
    linearization := soundIo
    capture :=
      { active := fun _ => some ⟨⟨"provider:1"⟩, ⟨"target:1"⟩, ⟨"target:1"⟩⟩
        activeProvider := ⟨"provider:1"⟩, reservation := .ok ()
        snapshot := .ok ⟨dispatchedSnapshot⟩, receiptUuid := 32, bridgeRecord := .ok () }
    verifier := fun _ refs _ => .ok (refs.map fun ref => ⟨ref, .verifiedPass, "evidence:1"⟩)
    verification := ⟨30, soundIo, soundIo⟩ }

theorem othersApart_activatedShared (t : AttemptTokens) :
    OthersApart numeralCodec t activatedShared :=
  fun _ w => ⟨[], Run.nil w.journal, fun _ h => (nomatch h), fun _ _ h => (nomatch h)⟩

set_option maxRecDepth 20000 in
/-- The sample action is executed once and committed. -/
theorem verified_action_protocol_commits :
    ((executeVerifiedCanonicalUiaAction numeralCodec 3 7 soundSurroundings
        activatedShared).1.toOption.map fun result => (result.1, result.2.length)) =
          some (.committed 7 .verifiedExpected 4 5 6, 1) ∧
      Ends (executeVerifiedCanonicalUiaAction numeralCodec 3 7 soundSurroundings) activatedShared
        (fun result sh' => AuthorizedCalls activatedShared 7 soundSurroundings sh' result.2 ∧
          CommitJustified numeralCodec 7 sh'.state.journal result.1)
        (fun failure sh' => AuthorizedCalls activatedShared 7 soundSurroundings sh' failure.2 ∧
          ∀ e, failure.1 = .execute (.dispatch e) → LeftPrepared 7 sh'.state.journal) :=
  ⟨by decide +kernel, (verified_action_protocol numeralCodec .none 1 [] (freshJournal 1)
    (by rw [openJournal_empty]) _ activatedShared (run_runCalls _ _ _) 7 3 soundSurroundings
    (othersApart_activatedShared _)).1⟩

end Localview
