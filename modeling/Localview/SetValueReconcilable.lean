import Localview.DispatchReconcilable

/-! # Which failed SetValue executions can be reconciled

The execution gives its permit up wherever a revalidation, the provider or the
final context fails, and its durable record consumes the permit.  Only the reads
of the companion records and the request between them return without either.
-/
namespace Localview
open EarlyReturn StateRun AsyncState

section
variable {codec : EntryCodec} {a : Uuid} {sh : Shared DispatchWorld} {sessionId : SessionId}
  {armed : WindowsUiaDispatchExecutionPermit} {payload : WindowsUiaSetValueExecutionPayload}
  {dispatchAttemptRef : Uuid}

/-! ## Up to the request -/

theorem looks_admittedOperation (a : Uuid) : Looks (admittedOperation a) := by
  refine (looks_read _).bind fun intentSequence => ?_
  cases intentSequence with
  | none => exact looks_pure none
  | some intentSequence =>
    refine (looks_access fun _ => rfl).bind fun binding => ?_
    cases binding with
    | none => exact looks_pure none
    | some binding => exact (looks_reject _ _).bind fun _ => looks_pure _

theorem looks_setValuePayloadBinding (a : Uuid) : Looks (setValuePayloadBinding a) := by
  refine (looks_admittedOperation a).bind fun operation => ?_
  by_cases hop : operation ≠ some .setValue
  · rw [if_pos hop]
    exact looks_pure none
  rw [if_neg hop]
  refine (looks_read _).bind fun intentSequence => ?_
  cases intentSequence with
  | none => exact looks_pure none
  | some intentSequence =>
    refine (looks_access fun _ => rfl).bind fun binding => ?_
    cases binding with
    | none => exact looks_pure none
    | some binding => exact (looks_reject _ _).bind fun _ => looks_pure _

/-- The abandoning revalidation never fails badly. -/
theorem ends_verifyCanonicalOrAbandon (h : HoldsPermit codec a armed.dispatchPermit sh)
    {ok : Unit → Shared DispatchWorld → Prop} :
    Ends (verifyCanonicalOrAbandon sessionId armed) sh ok (fun _ => Reconcilable a) ↔
      (CanonicalPrepared sessionId armed.actionId armed.sealReceipt.authority sh →
        ok () (sh.after 4)) := by
  have herr : ∀ (_ : WindowsUiaSetValueExecutionError) sh', Released codec a sh' →
      Reconcilable a sh' := fun _ _ hreleased => hreleased.reconcilable
  unfold verifyCanonicalOrAbandon actionEnvelope recoveryState
  simp only [ends_bind, ends_read, ends_envelopeOrAbandon (h.after 1) herr,
    ends_rejectAbandoning (h.after 1) herr, ends_actionEnvelopeIsCurrent, Shared.after_after,
    Nat.reduceAdd, ends_rejectAbandoning (h.after 2) herr, ends_rejectAbandoning (h.after 3) herr,
    ends_rejectAbandoning (h.after 4) herr, not_true_eq_false, false_implies, implies_true,
    and_true, not_not, Bool.not_eq_true, Bool.not_eq_false]
  constructor
  · rintro hall ⟨⟨envelope, henv, hchanged⟩, ⟨envelope', henv', hmatches⟩, hprepared⟩
    exact hall envelope henv hchanged envelope' henv' hmatches hprepared
  · intro hall envelope henv hchanged envelope' henv' hmatches hprepared
    exact hall ⟨⟨envelope, henv, hchanged⟩, ⟨envelope', henv', hmatches⟩, hprepared⟩

variable {ok : WindowsUiaSetValueDispatchRequest → Shared DispatchWorld → Prop}

/-- The condition that `SetValueReadsGood` puts on a payload record. -/
theorem ends_boundSetValueRequest (h : HoldsPermit codec a armed.dispatchPermit sh)
    (hok : ∀ request, ok request sh) (binding : Option DurableSetValuePayloadBinding) :
    Ends (boundSetValueRequest armed payload dispatchAttemptRef binding) sh ok
        (fun _ => Reconcilable a) ↔
      ∃ durable, binding = some durable ∧
        (payloadBindingMismatch durable armed.actionId payload = false →
          ∃ request, (setValueRequest armed payload dispatchAttemptRef).new = .ok request) := by
  have herr : ∀ (_ : WindowsUiaSetValueExecutionError) sh', Released codec a sh' →
      Reconcilable a sh' := fun _ _ hreleased => hreleased.reconcilable
  unfold boundSetValueRequest
  simp only [ends_bind, ends_ofOption, ends_rejectAbandoning h herr, ends_mapError, ends_ofExcept, hok,
    implies_true, true_and, h.not_reconcilable, imp_false, Bool.not_eq_true]
  cases binding with
  | none => simp
  | some durable =>
    cases (setValueRequest armed payload dispatchAttemptRef).new with
    | error e => simp
    | ok request => simp

theorem ends_companionSetValueRequest (h : HoldsPermit codec a armed.dispatchPermit sh)
    (hok : ∀ request n, ok request (sh.after n)) :
    Ends (companionSetValueRequest armed payload dispatchAttemptRef) sh ok
        (fun _ => Reconcilable a) ↔
      Ends (admittedOperation armed.actionId) sh
        (fun operation sh => operation = some .setValue →
          armed.sealReceipt.requiredPattern = .value →
          Ends (setValuePayloadBinding armed.actionId) sh
            (fun binding _ => ∃ durable, binding = some durable ∧
              (payloadBindingMismatch durable armed.actionId payload = false →
                ∃ request, (setValueRequest armed payload dispatchAttemptRef).new = .ok request))
            (fun _ _ => False))
        (fun _ _ => False) := by
  have herr : ∀ (_ : WindowsUiaSetValueExecutionError) sh', Released codec a sh' →
      Reconcilable a sh' := fun _ _ hreleased => hreleased.reconcilable
  unfold companionSetValueRequest
  rw [ends_bind, ends_mapError]
  -- a failed read of a record leaves the permit live
  refine (looks_admittedOperation _).ends_congr (fun operation n => ?_) fun _ n =>
    iff_of_false (h.after n).not_reconcilable id
  have hn := h.after n
  simp only [ends_bind, ends_rejectAbandoning hn herr, not_not]
  refine imp_congr_right fun _ => imp_congr_right fun _ => ?_
  rw [ends_mapError]
  refine (looks_setValuePayloadBinding _).ends_congr (fun binding m => ?_) fun _ m =>
    iff_of_false (hn.after m).not_reconcilable id
  refine ends_boundSetValueRequest (hn.after m) (fun request => ?_) binding
  rw [Shared.after_after]
  exact hok request _

/-! ## From the request on -/

/-- **The dispatch** releases the action, however it ends. -/
theorem ends_dispatchSetValueOnce (h : HoldsPermit codec a armed.dispatchPermit sh)
    (executor : WindowsUiaSetValueExecutor) (request : WindowsUiaSetValueDispatchRequest)
    (io : AppendIo) :
    Ends (dispatchSetValueOnce codec executor armed request io) sh (fun _ => Released codec a)
      (fun _ => Released codec a) := by
  have herr : ∀ (_ : WindowsUiaSetValueExecutionError) sh', Released codec a sh' →
      Released codec a sh' := fun _ _ hreleased => hreleased
  have hone := h.after 1
  unfold dispatchSetValueOnce
  simp only [ends_bind, ends_read, ends_receiptOrAbandon hone herr,
    ends_rejectAbandoning hone herr, ends_mapError]
  intro receipt _ _ _ _
  refine (ends_recordDispatchLinearized hone _ _).mono (fun entry sh' hreleased => ?_)
    fun _ _ hreleased => hreleased
  exact ends_reject.mpr ⟨fun _ => hreleased, fun _ => hreleased⟩

/-- A fact that reading the state keeps, and every call of the journal that presents no
dispatch grant. -/
structure Lasting (codec : EntryCodec) (P : Shared DispatchWorld → Prop) : Prop where
  looks : ∀ {ε α : Type} {f : Async DispatchWorld ε α}, Looks f → Keeps P f
  call : ∀ {ε α : Type} {call : ConsequentialJournal → Except ε α × ConsequentialJournal}
    (c : JournalCall), (∀ b, presentsDispatch b c = false) → (∀ j, (call j).2 = (c.run codec j).2) →
      Keeps P (journalCall call)

theorem lasting_released : Lasting codec (Released codec a) where
  looks hf := hf.keeps fun _ h => h.next
  call c hc := keeps_released_call c (hc a)

theorem Lasting.capture {P : Shared DispatchWorld → Prop} (h : Lasting codec P)
    (surroundings : CaptureSurroundings) (permit : ConsequentialPostconditionObservationPermit) :
    Keeps P (capturePostconditionObservationWithSnapshot surroundings permit) := by
  refine (h.looks (looks_read _)).bind fun captured => ?_
  rcases captured with failure | ⟨snapshot, receipt⟩
  · have habandon : Keeps P (journalCall fun j => j.abandonPostconditionObservation permit) :=
      h.call (.abandonPostconditionObservation permit) (fun _ => rfl) fun _ => rfl
    exact (habandon.mapError _).bind fun _ => keeps_fail failure
  · have hcomplete : Keeps P
        (journalCall fun j => j.completePostconditionObservation permit receipt) :=
      h.call (.completePostconditionObservation permit receipt) (fun _ => rfl) fun _ => rfl
    exact (hcomplete.mapError _).bind fun _ => keeps_pure _

theorem Lasting.reconcileSetValue {P : Shared DispatchWorld → Prop} (h : Lasting codec P)
    (receipt : ConsequentialPostconditionReconciliationReceipt) (io : AppendIo) :
    Keeps P (reconcileSetValue codec receipt io) := by
  refine (h.looks (looks_read _)).bind fun journal => (h.looks (looks_read _)).bind
    fun snapshots => (keeps_ofExcept _).bind fun draft => ?_
  have hrecord : Keeps P
      (journalCall fun j => j.recordActionPostconditionReceipt codec draft io) :=
    h.call (.recordActionPostconditionReceipt draft io) (fun _ => rfl) fun _ => rfl
  exact (hrecord.mapError _).bind fun _ => keeps_pure _

/-- The calls of an observation present nothing of the action. -/
theorem keeps_released_observeSetValue (surroundings : CaptureSurroundings)
    (actionId observationRef : Uuid) :
    Keeps (Released codec a) (observeSetValue surroundings actionId observationRef) := by
  have hbegin : Keeps (Released codec a) (journalCall fun j =>
      j.beginPostconditionObservation actionId observationRef) :=
    keeps_released_call (.beginPostconditionObservation actionId observationRef) rfl fun _ => rfl
  exact (hbegin.mapError _).bind fun permit => ((lasting_released.capture _ permit).mapError _).bind
    fun _ => (keeps_reject _ _).bind fun _ => keeps_pure _

theorem keeps_released_verifySetValueOutcome
    (decode : String → Option PayloadEqualityPostconditionContractV1)
    (executor : WindowsUiaSetValueExecutor) (actionId : Uuid) (elementRef : ProviderElementRef)
    (observation : ConsequentialPostconditionObservationReceipt)
    (dispatchJournalSequence : Nat) (io : SetValueIo) :
    Keeps (Released codec a) (verifySetValueOutcome codec decode executor sessionId actionId payload
      elementRef observation dispatchJournalSequence io) := by
  refine (lasting_released.looks (looks_read _)).bind fun admitted =>
    (keeps_ofOption _ _).bind fun envelope => (keeps_reject _ _).bind fun _ =>
      (keeps_ofExcept _).bind fun contractRef =>
        ((lasting_released.looks (looks_access fun _ => rfl)).mapError _).bind fun verification =>
          (keeps_reject _ _).bind fun _ =>
            ((lasting_released.reconcileSetValue _ _).mapError _).bind fun reconciliation => ?_
  have hcommit : Keeps (Released codec a) (journalCall fun j =>
      j.recordCommitted codec actionId io.commit) :=
    keeps_released_call (.recordCommitted actionId io.commit) rfl fun _ => rfl
  split
  · exact (hcommit.mapError _).bind fun _ => keeps_pure _
  · exact keeps_pure _

theorem keeps_released_settleSetValue
    (decode : String → Option PayloadEqualityPostconditionContractV1)
    (executor : WindowsUiaSetValueExecutor) (surroundings : CaptureSurroundings) (actionId : Uuid)
    (receipt : WindowsUiaSetValueDispatchReceipt) (dispatchJournalSequence : Nat)
    (io : SetValueIo) :
    Keeps (Released codec a) (settleSetValue codec decode executor surroundings sessionId actionId
      payload receipt dispatchJournalSequence io) := by
  refine (lasting_released.looks (looks_read _)).bind fun state => ?_
  split
  · exact keeps_pure _
  · exact (keeps_reject _ _).bind fun _ => (keeps_released_observeSetValue _ _ _).bind fun _ =>
      keeps_released_verifySetValueOutcome _ _ _ _ _ _ _

/-- **The armed execution leaves the action reconcilable exactly where its
companion reads and its request are good.** -/
theorem setValue_reconcilable_iff (h : HoldsPermit codec a armed.dispatchPermit sh)
    (decode : String → Option PayloadEqualityPostconditionContractV1)
    (executor : WindowsUiaSetValueExecutor) (surroundings : CaptureSurroundings) (io : SetValueIo) :
    ReconcilableOnError a (executeArmedUiaSetValueDispatch codec decode executor surroundings
        sessionId armed payload io) sh ↔
      SetValueReadsGood sessionId armed payload io.dispatchAttemptRef sh := by
  unfold ReconcilableOnError executeArmedUiaSetValueDispatch SetValueReadsGood
  rw [ends_bind, ends_verifyCanonicalOrAbandon h]
  refine imp_congr_right fun _ => ?_
  rw [ends_bind]
  refine ends_companionSetValueRequest (h.after 4) fun request n => ?_
  have hholds : HoldsPermit codec a armed.dispatchPermit ((sh.after 4).after n) :=
    (h.after 4).after n
  -- from here on every state is released
  rw [ends_bind]
  refine (ends_dispatchSetValueOnce hholds executor request io.linearization).mono ?_
    fun _ _ hreleased => hreleased.reconcilable
  rintro ⟨receipt, entry⟩ sh' hreleased
  exact (keeps_released_settleSetValue decode executor surroundings armed.actionId receipt
    entry.journalSequence io sh' hreleased).mono (fun _ _ _ => trivial)
      fun _ _ hend => hend.reconcilable

end

/-- An execution grant belongs to an action past PREPARED, in every run. -/
theorem executionPast_of_run {codec : EntryCodec} {faults : LoadFaults} {ref : Uuid}
    {file : Bytes} {j₀ j : ConsequentialJournal} {tr : List CallLabel}
    (hopen : (openJournal codec faults ref file).1 = .ok j₀) (hrun : Run (CallStep codec) j₀ tr j) :
    ExecutionPast j := by
  obtain ⟨-, -, hexecution, -⟩ := continues_of_open hopen
  exact hrun.invariant (fun _ _ _ h hs => executionPast_step h hs) fun a _ => hexecution a

/-- **Which failures leave the action reconcilable.**  In any run of the journal,
and whatever the other tasks do that hold no authority over the action: once
PREPARED is recorded, preparing must pass its revalidation, arming must reach
`begin_dispatch`, and the execution's companion reads must be good. -/
theorem failed_attempt_reconcilable_iff (codec : EntryCodec) (faults : LoadFaults) (ref : Uuid)
    (file : Bytes) (j₀ : ConsequentialJournal)
    (hopen : (openJournal codec faults ref file).1 = .ok j₀) (tr : List CallLabel)
    (sh : Shared DispatchWorld) (hrun : Run (CallStep codec) j₀ tr sh.state.journal) (a : Uuid)
    (hothers : OthersWithout codec a sh) (sessionId : SessionId)
    (sealReceipt : WindowsUiaDispatchSealReceipt) (io : PreparationIo) :
    (∀ admission, ((sh.after 1).state.journal.recordDispatchPrepared codec a
          (preparationReceipt a io.receiptUuid sealReceipt) io.capabilityRef io.append).1 =
            .ok admission →
        (ReconcilableOnError a (prepareUiaDispatch codec sessionId a (.ok sealReceipt) io) sh ↔
          CanonicalPrepared sessionId a sealReceipt.authority
            (preparedState codec a (preparationReceipt a io.receiptUuid sealReceipt) io sh))) ∧
      ∀ prepared sh₁, prepareUiaDispatch codec sessionId a (.ok sealReceipt) io sh =
          (.ok prepared, sh₁) →
        ∀ (armSession : SessionId)
          (revalidated : Except WindowsObserveRuntimeError WindowsUiaBoundDispatchContextReceipt)
          (permitRef : Uuid),
        (ReconcilableOnError a
            (armUiaDispatchExecution armSession prepared revalidated permitRef) sh₁ ↔
          ArmReachesBegin armSession prepared revalidated sh₁) ∧
        ∀ armed sh₂, armUiaDispatchExecution armSession prepared revalidated permitRef sh₁ =
            (.ok armed, sh₂) →
          ∀ (decode : String → Option PayloadEqualityPostconditionContractV1)
            (executor : WindowsUiaSetValueExecutor) (surroundings : CaptureSurroundings)
            (executeSession : SessionId) (payload : WindowsUiaSetValueExecutionPayload)
            (executionIo : SetValueIo),
          (ReconcilableOnError a (executeArmedUiaSetValueDispatch codec decode executor
              surroundings executeSession armed payload executionIo) sh₂ ↔
            SetValueReadsGood executeSession armed payload executionIo.dispatchAttemptRef sh₂) := by
  obtain ⟨tr', hturn, -⟩ := hothers 0 sh.state
  have hexec : ExecutionPast (sh.after 1).state.journal :=
    executionPast_of_run hopen (Run.append_iff.mpr ⟨_, hrun, hturn⟩)
  refine ⟨fun admission hadmission => prepare_reconcilable_iff hothers hexec hadmission, ?_⟩
  intro prepared sh₁ hprepare armSession revalidated permitRef
  obtain ⟨haction, hseq, hholds⟩ :=
    (ends_prepareUiaDispatch hothers hexec sessionId (.ok sealReceipt) io).of_ok hprepare
  have hgenuine : GenuinePrepared codec a prepared sh₁ := ⟨haction, hseq, hholds⟩
  refine ⟨arm_reconcilable_iff hgenuine, ?_⟩
  intro armed sh₂ harm decode executor surroundings executeSession payload executionIo
  obtain ⟨-, hpermit⟩ := (ends_armUiaDispatchExecution hgenuine).of_ok harm
  exact setValue_reconcilable_iff hpermit decode executor surroundings executionIo

/-! ## A stranded action -/

/-- The bridge that holds the sample action's envelope, its session observed. -/
def sampleBridge : LiveBridge :=
  ((LiveBridge.new 8).insertEnvelope sampleEnvelope).observe 32 3 (.bindProviderObservation
    { generation := 1, providerIncarnationRef := ⟨"provider:1"⟩
      targetIncarnationRef := ⟨"target:1"⟩, initialContinuity := .continuous
      sequenceBaseline := none })

/-- The sample action authorized, and no other task about. -/
def sampleShared : Shared DispatchWorld :=
  { state :=
      { journal := (runCalls numeralCodec (freshJournal 1) (sampleCalls.take 2)).2
        bridge := sampleBridge, operationFile := fun _ => .ok none
        setValuePayloadFile := fun _ => .ok none }
    others := fun _ w => w }

def sampleSeal : WindowsUiaDispatchSealReceipt :=
  { authority := sampleEnvelope.metadata, authorizationJournalSequence := 2
    elementLease :=
      { snapshotCutRef := "cut:1", providerIncarnationRef := ⟨"provider:1"⟩
        targetIncarnationRef := ⟨"target:1"⟩
        elementRef :=
          { providerFamily := "windows-uia", providerIncarnationRef := ⟨"provider:1"⟩
            targetIncarnationRef := ⟨"target:1"⟩, opaqueProviderElementId := "element:1"
            semanticLocatorHints := [], parentSurfaceRef := none, acquisitionCutRef := "cut:1"
            realization := .realizedCurrent, lifetimeProfileRevision := "lifetime:1" } }
    requiredPattern := .value
    contextRequirements := ⟨true, false, true⟩ }

def samplePreparation : PreparationIo := { receiptUuid := 20, capabilityRef := 21, append := soundIo }

theorem othersWithout_sampleShared (a : Uuid) : OthersWithout numeralCodec a sampleShared :=
  fun _ w => ⟨[], Run.nil w.journal, fun _ h => nomatch h⟩

theorem failed_attempt_reconcilable_iff_sample :
    ReconcilableOnError 7 (prepareUiaDispatch numeralCodec 3 7 (.ok sampleSeal) samplePreparation)
        sampleShared ↔
      CanonicalPrepared 3 7 sampleSeal.authority (preparedState numeralCodec 7
        (preparationReceipt 7 20 sampleSeal) samplePreparation sampleShared) :=
  (failed_attempt_reconcilable_iff numeralCodec .none 1 [] (freshJournal 1)
    (by rw [openJournal_empty]) _ sampleShared (run_runCalls _ _ _) 7
    (othersWithout_sampleShared 7) 3 sampleSeal samplePreparation).1 _ rfl

set_option maxRecDepth 10000 in
/-- The provider fails to observe the context while the sample action is armed:
the capability is gone and its grant is not. -/
theorem failed_context_strands_action :
    ∃ prepared sh₁, prepareUiaDispatch numeralCodec 3 7 (.ok sampleSeal) samplePreparation
        sampleShared = (.ok prepared, sh₁) ∧
      let failed := armUiaDispatchExecution 3 prepared
        (.error (.provider "action_dispatch_context" "element lease unavailable")) 22 sh₁
      failed.1 = .error (.contextProvider
          (.provider "action_dispatch_context" "element lease unavailable")) ∧
        (failed.2.state.journal.beginPostconditionObservation 7 23).1 =
          .error (.dispatchAuthorityStillLive 7) :=
  ⟨_, _, rfl, rfl, rfl⟩

end Localview
