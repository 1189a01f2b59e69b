import Localview.PostconditionReconciliation

/-! # The receipts that reconciliation drafts

`reconcile_consequential_postconditions` builds the classification of the contracts, and the
journal's validator derives it again.  Whatever the first lets through, of any evidence, the
second accepts, as long as the action is still to be observed and for the same cause.
-/
namespace Localview
open EarlyReturn StateRun

/-- The journal minted the observation: it was begun under the fresh identifier, and a snapshot
completed it. -/
def MintedObservation (observationRef : Uuid)
    (observation : ConsequentialPostconditionObservationReceipt) : Prop :=
  ∃ (j j' : ConsequentialJournal) (permit : ConsequentialPostconditionObservationPermit)
    (snapshot : ReconciliationSnapshotReceipt),
    (j.beginPostconditionObservation permit.actionId observationRef).1 = .ok permit ∧
      (j'.completePostconditionObservation permit snapshot).1 = .ok observation

theorem beginPostconditionObservation_cut {j : ConsequentialJournal} {a observationRef : Uuid}
    {permit : ConsequentialPostconditionObservationPermit}
    (h : (j.beginPostconditionObservation a observationRef).1 = .ok permit) :
    ∃ ref sequence, permit.snapshotCutRef = postdispatchCutRef ref a sequence observationRef := by
  unfold ConsequentialJournal.beginPostconditionObservation at h
  simp only at h
  split_ifs at h
  cases henv : admittedEnvelopeFor j.entries a with
  | none =>
    rw [henv] at h
    cases h
  | some envelope =>
    rw [henv] at h
    cases hcause : postconditionObservationCauseFor j.entries a with
    | none =>
      rw [hcause] at h
      cases h
    | some cause =>
      rw [hcause] at h
      cases h
      exact ⟨_, _, rfl⟩

theorem MintedObservation.cut {observationRef : Uuid}
    {observation : ConsequentialPostconditionObservationReceipt}
    (h : MintedObservation observationRef observation) :
    (∃ ref sequence, observation.snapshotCutRef =
      postdispatchCutRef ref observation.actionId sequence observationRef) ∧
      trimIsEmpty observation.reconciliationReceiptRef = false := by
  obtain ⟨j, j', permit, snapshot, hbegin, hcomplete⟩ := h
  obtain ⟨ref, sequence, hcut⟩ := beginPostconditionObservation_cut hbegin
  unfold ConsequentialJournal.completePostconditionObservation at hcomplete
  split at hcomplete
  · cases hcomplete
  · simp only [bindObservedSnapshot, rejectIf_bind_eq_ok, not_not, Bool.not_eq_true] at hcomplete
    obtain ⟨-, -, hsame, hblank, hok⟩ := hcomplete
    cases hok
    refine ⟨⟨ref, sequence, ?_⟩, hblank⟩
    show snapshot.snapshotCutRef = _
    rw [hsame, hcut]

/-- **Reconciliation is sound and complete.**  In a journal that a run from an opened file has
reached, an observation that the journal minted, under an identifier that the precondition's cut
does not hold, is reconciled with any evidence: where the checks before the write let it
through, and the action is still to be observed and for the same cause, the validator accepts
the receipt, which any order of the evidence gives, which has each expected contract in one
class, and which verifies them all or refutes one exactly where the evidence does. -/
theorem reconciliation_sound_complete (codec : EntryCodec) (faults : LoadFaults) (ref : Uuid)
    (file : Bytes) (j₀ : ConsequentialJournal)
    (hopen : (openJournal codec faults ref file).1 = .ok j₀) (tr : List CallLabel)
    (j : ConsequentialJournal) (hrun : Run (CallStep codec) j₀ tr j) (observationRef : Uuid)
    (observation : ConsequentialPostconditionObservationReceipt)
    (hminted : MintedObservation observationRef observation)
    (envelope : CanonicalActionEnvelope)
    (henv : admittedEnvelopeFor j.entries observation.actionId = some envelope)
    (hfresh : ¬ observationRef.display.toList <:+:
      envelope.metadata.preconditionSnapshotCutRef.toList)
    (currentSnapshot : SessionId → Option ReconciliationSnapshotReceipt)
    (evidence : List ConsequentialPostconditionEvidence) (draft : ActionPostconditionReceiptDraft)
    (hdraft : reconciliationDraftFor currentSnapshot j ⟨observation, evidence⟩ = .ok draft)
    (state : ConsequentialRecoveryState)
    (hstate : recoveryStateFor j.entries observation.actionId = some state)
    (hobservable : state.observable = true)
    (hcause : postconditionObservationCauseFor j.entries observation.actionId =
      some observation.cause) :
    validateActionPostconditionReceipt j.entries observation.actionId
        (draft.complete j.nextSequence) (some state) = .ok () ∧
      validateTransition j.entries observation.actionId
        (.postconditionReceiptRecorded (draft.complete j.nextSequence)) .append = .ok () ∧
      (∀ evidence', evidence.Perm evidence' →
        reconciliationDraftFor currentSnapshot j ⟨observation, evidence'⟩ = .ok draft) ∧
      envelope.metadata.expectedPostconditionContractRefs.Nodup ∧
      (draft.verifiedContractRefs ++ draft.failedContractRefs ++
        draft.unresolvedUnknownContractRefs).Perm
          envelope.metadata.expectedPostconditionContractRefs ∧
      (draft.verdict = .verifiedExpected ↔
        ∀ c ∈ envelope.metadata.expectedPostconditionContractRefs,
          ∃ item ∈ evidence, item.contractRef = c ∧ item.status = .verifiedPass) ∧
      (draft.verdict = .verifiedUnexpected ↔
        ∃ c ∈ envelope.metadata.expectedPostconditionContractRefs,
          ∃ item ∈ evidence, item.contractRef = c ∧ item.status = .verifiedFail) := by
  have hcont : Continues j :=
    hrun.invariant (fun _ _ _ h hs => h.step hs) (continues_of_open hopen).1
  obtain ⟨envelope', snapshot, henv', hp, ht, hs, hcurrent, hsame, hwhole, hne, hnd, hcollectable,
    rfl⟩ := reconciliationDraftFor_eq_ok.mp hdraft
  obtain rfl : envelope = envelope' := Option.some.inj (henv.symm.trans henv')
  obtain ⟨⟨instance', sequence, hcut⟩, hblank⟩ := hminted.cut
  have hpast : beforePrepared (recoveryStateFor j.entries observation.actionId) = false := by
    rw [hstate]
    cases state <;> first | rfl | cases hobservable
  obtain ⟨cause, hcause', hprior⟩ := cause_of_past hcont.history hpast
  obtain rfl := Option.some.inj (hcause.symm.trans hcause')
  have hpartition : ((reconciliationDraft observation _ (evidenceFor evidence)).verifiedContractRefs ++
      (reconciliationDraft observation _ (evidenceFor evidence)).failedContractRefs ++ _).Perm _ :=
    reconciliationDraft_partition envelope.metadata.expectedPostconditionContractRefs
  have hmatches := receiptMatches_of_draft hcont henv hp ht hs
    (by rw [hcut]; exact trimIsEmpty_postdispatchCutRef _ _ _ _)
    (fun heq => hfresh (by rw [← heq, hcut]; exact (postdispatchCutRef_suffix _ _ _ _).isInfix))
    hblank hcause hprior hne hnd hcollectable
  have hfound : ∀ (c : String) (status : ConsequentialPostconditionStatus),
      (∃ item, evidenceFor evidence c = some item ∧ item.status = status) ↔
        ∃ item ∈ evidence, item.contractRef = c ∧ item.status = status := by
    intro c status
    refine exists_congr fun item => ?_
    rw [evidenceFor_eq_some hcollectable.nodup, and_assoc]
  obtain ⟨hexpected, hunexpected⟩ := @reconciliationDraft_verdict observation
    envelope.metadata.expectedPostconditionContractRefs (evidenceFor evidence)
  simp only [hfound] at hexpected hunexpected
  refine ⟨validateActionPostconditionReceipt_iff.mpr ⟨envelope, hmatches⟩,
    validateTransition_iff.mpr (.receipt hstate hobservable hmatches), ?_, hnd, hpartition,
    hexpected, hunexpected⟩
  intro evidence' hperm
  obtain ⟨hcollectable', heq⟩ := hcollectable.perm hperm
  refine reconciliationDraftFor_eq_ok.mpr ⟨envelope, snapshot, henv, hp, ht, hs, hcurrent, hsame,
    hwhole, hne, hnd, hcollectable', ?_⟩
  rw [heq]

theorem reconciliation_sound_complete_sample :
    ∃ draft, reconciliationDraftFor (fun _ => some (sampleSnapshot sampleCut))
        (abandonedRun ["contract:saved"]).2
        ⟨sampleObservation, [⟨"contract:saved", .verifiedFail, "evidence:1"⟩]⟩ = .ok draft ∧
      validateActionPostconditionReceipt (abandonedRun ["contract:saved"]).2.entries 7
        (draft.complete (abandonedRun ["contract:saved"]).2.nextSequence)
        (some .dispatchPrepared) = .ok () ∧
      draft.verdict = .verifiedUnexpected := by
  have henv : admittedEnvelopeFor (abandonedRun ["contract:saved"]).2.entries 7 =
      some sampleEnvelope := by decide +kernel
  have hdraft := (@reconciliationDraftFor_eq_ok (fun _ => some (sampleSnapshot sampleCut)) _
    ⟨sampleObservation, [⟨"contract:saved", .verifiedFail, "evidence:1"⟩]⟩ _).mpr
    ⟨sampleEnvelope, sampleSnapshot sampleCut, henv, rfl, rfl, rfl, rfl, ⟨rfl, rfl, rfl, rfl⟩,
      ⟨rfl, rfl⟩, by decide, by decide, ⟨by decide, by decide, by decide⟩, rfl⟩
  obtain ⟨hvalid, -, -, -, -, -, hunexpected⟩ := reconciliation_sound_complete numeralCodec .none 1 []
    (freshJournal 1) (by rw [openJournal_empty]) _ (abandonedRun ["contract:saved"]).2
    (run_runCalls _ _ _) 30 sampleObservation
    ⟨(abandonedRun ["contract:saved"]).2, sampleObserving ["contract:saved"], samplePermit,
      sampleSnapshot sampleCut, sample_begins _, sample_completes⟩
    sampleEnvelope henv (by decide +kernel) _ _ _ hdraft .dispatchPrepared (by decide +kernel) rfl
    (by decide +kernel)
  exact ⟨_, hdraft, hvalid, hunexpected.mpr
    ⟨"contract:saved", by decide, _, List.mem_cons_self, rfl, rfl⟩⟩

end Localview
