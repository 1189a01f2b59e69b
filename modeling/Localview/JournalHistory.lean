import Localview.JournalTransition

/-! # Validated histories

`Admits mode entries a tr` says once what `validateTransition` accepts, one
constructor for each way a transition can be accepted; `validateTransition_iff`
is the only place where the validator is unfolded.  A `History mode` is a list
of entries each of which was admitted after the ones before it and carries the
next sequence number: what the journal holds in memory, and what a replayed file
decodes to.
-/
namespace Localview
open EarlyReturn List

/-! ## The scans, one entry at a time -/

theorem recoveryStateFor_snoc (entries : List ConsequentialJournalEntry)
    (e : ConsequentialJournalEntry) (a : Uuid) :
    recoveryStateFor (entries ++ [e]) a =
      if e.actionId = a then some (transitionState e.transition)
      else recoveryStateFor entries a := by
  unfold recoveryStateFor
  rw [filter_append, foldl_append]
  by_cases h : e.actionId = a <;> simp [h]

/-- A linearization leaves the action possibly or knowingly not dispatched. -/
theorem transitionState_dispatchLinearized (receipt : DispatchLinearizationReceipt) :
    transitionState (.dispatchLinearized receipt) = .possiblyDispatched ∨
      transitionState (.dispatchLinearized receipt) = .knownNotDispatched := by
  unfold transitionState
  cases h : receipt.dispatchResult <;> simp [h]

theorem transitionState_receipt (receipt : ActionPostconditionReceipt) :
    transitionState (.postconditionReceiptRecorded receipt) = .verifiedUncommitted ∨
      transitionState (.postconditionReceiptRecorded receipt) = .outcomeObservedUnverified := by
  simp only [transitionState]
  split
  · exact .inl rfl
  · exact .inr rfl

theorem transitionState_reconciliationOutcome (outcome : WorldOutcome) (ref : Option String)
    (refs : List String) (verified : Bool) :
    transitionState (.reconciliationOutcome outcome ref refs verified) = .verifiedUncommitted ∨
      transitionState (.reconciliationOutcome outcome ref refs verified) =
        .outcomeObservedUnverified := by
  simp only [transitionState]
  split
  · exact .inl rfl
  · exact .inr rfl

theorem transitionState_compensation (ref : String) (outcome : WorldOutcome) :
    transitionState (.compensationRecorded ref outcome) = .compensated ∨
      transitionState (.compensationRecorded ref outcome) = .compensationFailed := by
  simp only [transitionState]
  split
  · exact .inl rfl
  · exact .inr rfl

theorem admittedEnvelopeFor_snoc (entries : List ConsequentialJournalEntry)
    (e : ConsequentialJournalEntry) (a : Uuid) :
    admittedEnvelopeFor (entries ++ [e]) a =
      (admittedEnvelopeFor entries a).or (admittedEnvelopeFor [e] a) := by
  simp only [admittedEnvelopeFor, findSome?_append]

variable {entries : List ConsequentialJournalEntry}

/-- An admitted envelope stays the one that is found. -/
theorem admittedEnvelopeFor_append_of_some {a : Uuid} {envelope : CanonicalActionEnvelope}
    (h : admittedEnvelopeFor entries a = some envelope) (later : List ConsequentialJournalEntry) :
    admittedEnvelopeFor (entries ++ later) a = some envelope := by
  unfold admittedEnvelopeFor at h ⊢
  rw [findSome?_append, h]
  rfl

theorem postconditionObservationCauseFor_snoc (entries : List ConsequentialJournalEntry)
    (e : ConsequentialJournalEntry) (a : Uuid) :
    postconditionObservationCauseFor (entries ++ [e]) a =
      (postconditionObservationCauseFor [e] a).or
        (postconditionObservationCauseFor entries a) := by
  simp only [postconditionObservationCauseFor, reverse_append, findSome?_append]

/-! ## What the two long validators accept -/

/-- A preparation receipt that the history up to now supports: the action was
admitted, its latest authorization is revalidated and carries the envelope's
revision, and the receipt names that authorization and the envelope's lineage. -/
structure PreparationMatches (entries : List ConsequentialJournalEntry) (a : Uuid)
    (receipt : DispatchPreparationReceipt) (envelope : CanonicalActionEnvelope) : Prop where
  admitted : admittedEnvelopeFor entries a = some envelope
  authorization : latestAuthorization entries a =
    some (receipt.authorizationJournalSequence, envelope.metadata.authorizationRevision, true)
  receiptRef : trimIsEmpty receipt.receiptRef = false
  preconditionCut : receipt.preconditionSnapshotCutRef = envelope.metadata.preconditionSnapshotCutRef
  provider : receipt.providerIncarnationRef = envelope.metadata.providerIncarnationRef
  target : receipt.targetIncarnationRef = envelope.metadata.targetIncarnationRef

theorem validateDispatchPreparation_iff {a : Uuid} {receipt : DispatchPreparationReceipt}
    {current : Option ConsequentialRecoveryState} :
    validateDispatchPreparation entries a receipt current = .ok () ↔
      ∃ envelope, PreparationMatches entries a receipt envelope := by
  unfold validateDispatchPreparation
  simp only [okOr_bind_eq_ok, rejectIf_bind_eq_ok, rejectIf_eq_ok, Prod.exists, not_not]
  constructor
  · rintro ⟨envelope, hadm, sequence, revision, revalidated, hauth, hrv, hrev, href, hseq,
      hcut, hprov, htarget⟩
    have hrv' : revalidated = true := by simpa using hrv
    subst hrev hseq hrv'
    exact ⟨envelope, hadm, hauth, by simpa using href, hcut, hprov, htarget⟩
  · rintro ⟨envelope, h⟩
    exact ⟨envelope, h.admitted, _, _, _, h.authorization, by simp, rfl, by simp [h.receiptRef],
      rfl, h.preconditionCut, h.provider, h.target⟩

variable {refs : List String}

/-- The classification loop accepts exactly the duplicate-free lists of expected
contracts not classified before. -/
theorem classifyContracts_eq_some {expected : Finset String} {classified result : Finset String} :
    classifyContracts expected refs classified = some result ↔
      (refs.Nodup ∧ ∀ c ∈ refs, c ∈ expected ∧ c ∉ classified) ∧
        result = classified ∪ refs.toFinset := by
  induction refs generalizing classified with
  | nil => simp [classifyContracts, eq_comm]
  | cons c rest ih =>
    unfold classifyContracts
    by_cases hbad : c ∉ expected ∨ c ∈ classified
    · rw [if_pos hbad]
      constructor
      · intro h; cases h
      · rintro ⟨⟨-, hmem⟩, -⟩
        obtain ⟨hexp, hnew⟩ := hmem c mem_cons_self
        exact absurd hbad (by simp [hexp, hnew])
    · obtain ⟨hexp, hnew⟩ := not_or.mp hbad
      rw [if_neg hbad, ih, nodup_cons, toFinset_cons, Finset.insert_union,
        Finset.union_insert]
      refine and_congr_left fun _ => ?_
      constructor
      · rintro ⟨hnd, hmem⟩
        refine ⟨⟨fun hc => ?_, hnd⟩, ?_⟩
        · exact (hmem c hc).2 (Finset.mem_insert_self _ _)
        · intro d hd
          rcases mem_cons.mp hd with rfl | hd
          · exact ⟨not_not.mp hexp, hnew⟩
          · exact ⟨(hmem d hd).1, fun h => (hmem d hd).2 (Finset.mem_insert_of_mem h)⟩
      · rintro ⟨⟨hc, hnd⟩, hmem⟩
        refine ⟨hnd, fun d hd => ⟨(hmem d (mem_cons_of_mem _ hd)).1, fun h => ?_⟩⟩
        rcases Finset.mem_insert.mp h with rfl | h
        · exact hc hd
        · exact (hmem d (mem_cons_of_mem _ hd)).2 h

theorem classifyContracts_empty {expected result : Finset String} :
    classifyContracts expected refs ∅ = some result ↔
      (refs.Nodup ∧ ∀ c ∈ refs, c ∈ expected) ∧ result = refs.toFinset := by
  rw [classifyContracts_eq_some]
  simp

variable {bindings : List ActionPostconditionEvidenceBinding}

/-- The evidence loop accepts exactly the bindings of distinct expected
contracts to non-blank receipts, and returns them in order. -/
theorem bindEvidence_eq_some {expected : Finset String} {bound result : Finset String}
    {refs refs' : List String} :
    bindEvidence expected bindings bound refs = some (result, refs') ↔
      ((bindings.map (·.contractRef)).Nodup ∧ ∀ b ∈ bindings, b.contractRef ∈ expected ∧
        b.contractRef ∉ bound ∧ trimIsEmpty b.receiptRef = false) ∧
      result = bound ∪ (bindings.map (·.contractRef)).toFinset ∧
      refs' = refs ++ bindings.map (·.receiptRef) := by
  induction bindings generalizing bound refs with
  | nil =>
    rw [bindEvidence, Option.some.injEq, Prod.mk.injEq, eq_comm, eq_comm (a := refs)]
    simp
  | cons b rest ih =>
    unfold bindEvidence
    by_cases hbad : b.contractRef ∉ expected ∨ b.contractRef ∈ bound ∨
        trimIsEmpty b.receiptRef = true
    · rw [if_pos hbad]
      constructor
      · intro h; cases h
      · rintro ⟨⟨-, hmem⟩, -⟩
        obtain ⟨hexp, hnew, hblank⟩ := hmem b mem_cons_self
        exact absurd hbad (by simp [hexp, hnew, hblank])
    · obtain ⟨hexp, hrest⟩ := not_or.mp hbad
      obtain ⟨hnew, hblank⟩ := not_or.mp hrest
      rw [if_neg hbad, ih, map_cons, nodup_cons, toFinset_cons,
        Finset.insert_union, Finset.union_insert, map_cons, append_assoc,
        singleton_append]
      refine and_congr_left fun _ => ?_
      constructor
      · rintro ⟨hnd, hmem⟩
        refine ⟨⟨fun hc => ?_, hnd⟩, ?_⟩
        · obtain ⟨d, hd, hdb⟩ := mem_map.mp hc
          exact (hmem d hd).2.1 (by rw [hdb]; exact Finset.mem_insert_self _ _)
        · intro d hd
          rcases mem_cons.mp hd with rfl | hd
          · exact ⟨not_not.mp hexp, hnew, by simpa using hblank⟩
          · obtain ⟨h1, h2, h3⟩ := hmem d hd
            exact ⟨h1, fun h => h2 (Finset.mem_insert_of_mem h), h3⟩
      · rintro ⟨⟨hc, hnd⟩, hmem⟩
        refine ⟨hnd, fun d hd => ?_⟩
        obtain ⟨h1, h2, h3⟩ := hmem d (mem_cons_of_mem _ hd)
        refine ⟨h1, fun h => ?_, h3⟩
        rcases Finset.mem_insert.mp h with heq | h
        · exact hc (heq ▸ mem_map_of_mem hd)
        · exact h2 h

theorem bindEvidence_empty {expected result : Finset String} :
    bindEvidence expected bindings ∅ [] = some (result, refs) ↔
      ((bindings.map (·.contractRef)).Nodup ∧ ∀ b ∈ bindings, b.contractRef ∈ expected ∧
        trimIsEmpty b.receiptRef = false) ∧
      result = (bindings.map (·.contractRef)).toFinset ∧
      refs = bindings.map (·.receiptRef) := by
  rw [bindEvidence_eq_some]
  simp

theorem card_toFinset_eq_length_iff :
    refs.toFinset.card = refs.length ↔ refs.Nodup :=
  Multiset.toFinset_card_eq_card_iff_nodup

/-- A postcondition receipt that the history up to now supports: it repeats the
admitted lineage, is minted at the next sequence, names the latest dispatch
record as its cause, and classifies the expected contracts exactly once each,
with evidence for every decisive one. -/
structure ReceiptMatches (entries : List ConsequentialJournalEntry) (a : Uuid)
    (receipt : ActionPostconditionReceipt) (envelope : CanonicalActionEnvelope) : Prop where
  admitted : admittedEnvelopeFor entries a = some envelope
  action : receipt.actionId = a
  session : receipt.sessionId = envelope.sessionId
  provider : receipt.providerIncarnationRef = envelope.metadata.providerIncarnationRef
  target : receipt.targetIncarnationRef = envelope.metadata.targetIncarnationRef
  expected : receipt.expectedPostconditionContractRefs =
    envelope.metadata.expectedPostconditionContractRefs
  cut : trimIsEmpty receipt.observationSnapshotCutRef = false
  cutFresh : receipt.observationSnapshotCutRef ≠ envelope.metadata.preconditionSnapshotCutRef
  reconciliation : trimIsEmpty receipt.reconciliationReceiptRef = false
  completion : receipt.completionJournalSequence = entries.length + 1
  receiptRef : receipt.receiptRef = postconditionReceiptRef a (entries.length + 1)
  causePrior : receipt.causalAssurance.causalJournalSequence < entries.length + 1
  cause : postconditionObservationCauseFor entries a = some receipt.causalAssurance
  contractsNodup : receipt.expectedPostconditionContractRefs.Nodup
  contractsNonempty : receipt.expectedPostconditionContractRefs ≠ []
  partitionNodup : (receipt.verifiedContractRefs ++ receipt.failedContractRefs ++
    receipt.unresolvedUnknownContractRefs).Nodup
  partition : (receipt.verifiedContractRefs ++ receipt.failedContractRefs ++
    receipt.unresolvedUnknownContractRefs).toFinset =
      receipt.expectedPostconditionContractRefs.toFinset
  verdict : receipt.verdict =
    partitionVerdict receipt.failedContractRefs receipt.unresolvedUnknownContractRefs
  bindingsNodup : (receipt.evidenceBindings.map (·.contractRef)).Nodup
  bindings : ∀ b ∈ receipt.evidenceBindings,
    b.contractRef ∈ receipt.expectedPostconditionContractRefs ∧ trimIsEmpty b.receiptRef = false
  evidenceSummary : receipt.evidenceReceiptRefs = receipt.evidenceBindings.map (·.receiptRef)
  decisive : ∀ c ∈ receipt.verifiedContractRefs ++ receipt.failedContractRefs,
    c ∈ receipt.evidenceBindings.map (·.contractRef)

theorem validateActionPostconditionReceipt_iff {a : Uuid} {receipt : ActionPostconditionReceipt}
    {current : Option ConsequentialRecoveryState} :
    validateActionPostconditionReceipt entries a receipt current = .ok () ↔
      ∃ envelope, ReceiptMatches entries a receipt envelope := by
  unfold validateActionPostconditionReceipt
  simp only [okOr_bind_eq_ok, rejectIf_bind_eq_ok, rejectIf_eq_ok, Prod.exists, not_not, not_or,
    classifyContracts_empty, bindEvidence_empty, card_toFinset_eq_length_iff]
  constructor
  · rintro ⟨envelope, hadm, haction, hsession, hprov, htarget, hexp, ⟨hcut, hfresh⟩, hrec, hcomp,
      href, hprior, hcause, ⟨hnd, hne⟩, _, ⟨⟨hpnd, hpmem⟩, rfl⟩, hpart, hverdict, _, _,
      ⟨⟨hbnd, hbmem⟩, rfl, rfl⟩, hsum, hdec⟩
    refine ⟨envelope, ?_⟩
    exact
      { admitted := hadm, action := haction, session := hsession, provider := hprov
        target := htarget, expected := hexp, cut := by simpa using hcut, cutFresh := hfresh
        reconciliation := by simpa using hrec, completion := hcomp, receiptRef := href
        causePrior := by omega, cause := hcause, contractsNodup := hnd
        contractsNonempty := fun h => hne (by rw [h]; rfl)
        partitionNodup := hpnd, partition := hpart, verdict := hverdict, bindingsNodup := hbnd
        bindings := fun b hb => ⟨mem_toFinset.mp (hbmem b hb).1, (hbmem b hb).2⟩
        evidenceSummary := hsum.symm
        decisive := fun c hc => Classical.byContradiction fun h =>
          hdec ⟨c, hc, fun hm => h (mem_toFinset.mp hm)⟩ }
  · rintro ⟨envelope, h⟩
    refine ⟨envelope, h.admitted, h.action, h.session, h.provider, h.target, h.expected,
      ⟨by simp [h.cut], h.cutFresh⟩, by simp [h.reconciliation], h.completion, h.receiptRef,
      by have := h.causePrior; omega, h.cause, ⟨h.contractsNodup, ?_⟩, _,
      ⟨⟨h.partitionNodup, ?_⟩, rfl⟩, h.partition, h.verdict, _, _,
      ⟨⟨h.bindingsNodup, ?_⟩, rfl, rfl⟩, h.evidenceSummary.symm, ?_⟩
    · intro hempty
      exact h.contractsNonempty (toFinset_eq_empty_iff _ |>.mp hempty)
    · intro c hc
      rw [← h.partition]
      exact mem_toFinset.mpr hc
    · intro b hb
      exact ⟨mem_toFinset.mpr (h.bindings b hb).1, (h.bindings b hb).2⟩
    · rintro ⟨c, hc, hmissing⟩
      exact hmissing (mem_toFinset.mpr (h.decisive c hc))

/-- The recovery states in which an action may still be observed. -/
def ConsequentialRecoveryState.observable : ConsequentialRecoveryState → Bool
  | .dispatchPrepared | .possiblyDispatched | .outcomeObservedUnverified => true
  | _ => false

/-- **What a history admits**, one constructor for each accepted transition.
The last two are accepted in replay only. -/
inductive Admits (mode : TransitionValidationMode) (entries : List ConsequentialJournalEntry)
    (a : Uuid) : ConsequentialJournalTransition → Prop
  | intent {envelope} : recoveryStateFor entries a = none → envelope.transportActionId = a →
      Admits mode entries a (.intentAdmitted envelope)
  | authorization {revision revalidated} :
      recoveryStateFor entries a = some .admitted ∨
        recoveryStateFor entries a = some .authorizedNotDispatched →
      Admits mode entries a (.authorizationRecorded revision revalidated)
  | prepared {receipt envelope} :
      recoveryStateFor entries a = some .authorizedNotDispatched →
      PreparationMatches entries a receipt envelope →
      Admits mode entries a (.dispatchPrepared receipt)
  | linearized {receipt} : recoveryStateFor entries a = some .dispatchPrepared →
      Admits mode entries a (.dispatchLinearized receipt)
  | receipt {receipt envelope state} : recoveryStateFor entries a = some state →
      state.observable = true → ReceiptMatches entries a receipt envelope →
      Admits mode entries a (.postconditionReceiptRecorded receipt)
  | compensation {ref outcome} :
      recoveryStateFor entries a = some .outcomeObservedUnverified →
      Admits mode entries a (.compensationRecorded ref outcome)
  | committed : recoveryStateFor entries a = some .verifiedUncommitted →
      Admits mode entries a .committed
  | legacyLinearized {receipt} : mode = .replay →
      recoveryStateFor entries a = some .authorizedNotDispatched →
      Admits mode entries a (.dispatchLinearized receipt)
  | legacyOutcome {outcome ref refs verified state} : mode = .replay →
      recoveryStateFor entries a = some state →
      state.observable = true ∨ state = .knownNotDispatched →
      Admits mode entries a (.reconciliationOutcome outcome ref refs verified)

open ConsequentialRecoveryState

theorem validateTransition_iff {mode : TransitionValidationMode} {a : Uuid}
    {tr : ConsequentialJournalTransition} :
    validateTransition entries a tr mode = .ok () ↔ Admits mode entries a tr := by
  constructor
  · intro h
    cases tr with simp only [validateTransition] at h
    | intentAdmitted envelope =>
      simp only [rejectIf_bind_eq_ok, rejectIf_eq_ok, not_not] at h
      exact .intent (by simpa using h.1) h.2
    | authorizationRecorded revision revalidated =>
      split at h
      · cases h
      · rename_i hs; exact .authorization (.inl hs)
      · rename_i hs; exact .authorization (.inr hs)
      · cases h
    | dispatchPrepared receipt =>
      simp only [rejectIf_bind_eq_ok, not_not] at h
      obtain ⟨-, hs, hv⟩ := h
      obtain ⟨envelope, hm⟩ := validateDispatchPreparation_iff.mp hv
      exact .prepared hs hm
    | dispatchLinearized receipt =>
      split at h
      · cases h
      · rename_i hs; exact .linearized hs
      · rename_i hs
        split at h
        · rename_i hmode; exact .legacyLinearized hmode hs
        · cases h
      · cases h
    | postconditionReceiptRecorded receipt =>
      simp only [rejectIf_bind_eq_ok] at h
      obtain ⟨-, hs, hv⟩ := h
      obtain ⟨envelope, hm⟩ := validateActionPostconditionReceipt_iff.mp hv
      rcases h : recoveryStateFor entries a with _ | state
      · simp [h] at hs
      · refine .receipt h ?_ hm
        cases state <;> simp [h, observable] at hs ⊢
    | reconciliationOutcome outcome ref refs verified =>
      split at h
      · cases h
      · rename_i hmode
        have hmode := not_not.mp hmode
        split at h
        · cases h
        all_goals first
          | (rename_i hs; exact .legacyOutcome hmode hs (by simp [observable]))
          | cases h
    | compensationRecorded ref outcome =>
      split at h
      · cases h
      · rename_i hs; exact .compensation hs
      · cases h
    | committed =>
      split at h
      · cases h
      · rename_i hs; exact .committed hs
      · cases h
  · intro h
    cases h with
    | intent hs ha => simp [validateTransition, hs, ha]
    | authorization hs => rcases hs with hs | hs <;> simp [validateTransition, hs]
    | prepared hs hm =>
      simp [validateTransition, hs, validateDispatchPreparation_iff.mpr ⟨_, hm⟩]
    | linearized hs => simp [validateTransition, hs]
    | @receipt _ _ state hs hobs hm =>
      have hv : validateActionPostconditionReceipt entries a _ (some state) = .ok () :=
        validateActionPostconditionReceipt_iff.mpr ⟨_, hm⟩
      cases state <;> simp [observable] at hobs <;>
        simp [validateTransition, hs, hv]
    | compensation hs => simp [validateTransition, hs]
    | committed hs => simp [validateTransition, hs]
    | legacyLinearized hmode hs => simp [validateTransition, hs, hmode]
    | @legacyOutcome _ _ _ _ state hmode hs hstate =>
      cases state <;> simp [observable] at hstate <;>
        simp [validateTransition, hs, hmode]

/-- **Replay admits what append admits.** -/
theorem Admits.replay {a : Uuid} {tr : ConsequentialJournalTransition}
    (h : Admits .append entries a tr) :
    Admits .replay entries a tr := by
  cases h with
  | intent hs ha => exact .intent hs ha
  | authorization hs => exact .authorization hs
  | prepared hs hm => exact .prepared hs hm
  | linearized hs => exact .linearized hs
  | receipt hs hobs hm => exact .receipt hs hobs hm
  | compensation hs => exact .compensation hs
  | committed hs => exact .committed hs
  | legacyLinearized hmode _ => cases hmode
  | legacyOutcome hmode _ _ => cases hmode

/-! ## Histories -/

/-- A list of entries each admitted after the ones before it, with consecutive
sequence numbers from 1 and the current schema. -/
inductive History (mode : TransitionValidationMode) : List ConsequentialJournalEntry → Prop
  | nil : History mode []
  | snoc {entries e} : History mode entries → e.schemaVersion = journalSchemaVersion →
      e.journalSequence = entries.length + 1 →
      Admits mode entries e.actionId e.transition → History mode (entries ++ [e])

namespace History
variable {mode : TransitionValidationMode} {entries : List ConsequentialJournalEntry}

theorem replay (h : History .append entries) : History .replay entries := by
  induction h with
  | nil => exact .nil
  | snoc _ hschema hseq hadm ih => exact ih.snoc hschema hseq hadm.replay

theorem snoc_iff {e : ConsequentialJournalEntry} :
    History mode (entries ++ [e]) ↔ History mode entries ∧
      e.schemaVersion = journalSchemaVersion ∧ e.journalSequence = entries.length + 1 ∧
      Admits mode entries e.actionId e.transition := by
  constructor
  · intro h
    generalize hw : entries ++ [e] = w at h
    cases h with
    | nil => simp at hw
    | snoc hprev hschema hseq hadm =>
      obtain ⟨rfl, he⟩ := append_inj' hw rfl
      obtain rfl := singleton_inj.mp he
      exact ⟨hprev, hschema, hseq, hadm⟩
  · rintro ⟨hprev, hschema, hseq, hadm⟩
    exact hprev.snoc hschema hseq hadm

/-- Every prefix of a history is a history. -/
theorem of_append {later : List ConsequentialJournalEntry}
    (h : History mode (entries ++ later)) : History mode entries := by
  induction later using List.reverseRec with
  | nil => simpa using h
  | append_singleton later e ih =>
    rw [← append_assoc] at h
    exact ih (snoc_iff.mp h).1

theorem of_split {e : ConsequentialJournalEntry} {later : List ConsequentialJournalEntry}
    (h : History mode (entries ++ e :: later)) :
    History mode entries ∧ e.schemaVersion = journalSchemaVersion ∧
      e.journalSequence = entries.length + 1 ∧
      Admits mode entries e.actionId e.transition := by
  rw [append_cons] at h
  exact snoc_iff.mp h.of_append

theorem take (h : History mode entries) (n : Nat) : History mode (entries.take n) := by
  rw [← take_append_drop n entries] at h
  exact h.of_append

/-- **Sequences are consecutive from 1.** -/
theorem journalSequence_getElem (h : History mode entries) (i : Nat) (hi : i < entries.length) :
    entries[i].journalSequence = i + 1 := by
  have hsplit : entries = entries.take i ++ entries[i] :: entries.drop (i + 1) := by
    rw [getElem_cons_drop, take_append_drop]
  rw [hsplit] at h
  have hseq := h.of_split.2.2.1
  rw [length_take] at hseq
  omega

end History

end Localview
