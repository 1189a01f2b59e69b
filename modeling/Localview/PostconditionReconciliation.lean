import Localview.DispatchAuthority

/-! # Postcondition reconciliation

`reconcile_consequential_postconditions` turns an observation receipt and typed
evidence into the one postcondition receipt the journal accepts
(`live-bridge/src/postcondition_reconciliation.rs`).  Four classifiers of the
recovery states have to agree for recovery debt to be workable:
`requires_reconciliation`, `recovery_debt_disposition`,
`begin_postcondition_observation` and `validate_transition`.
-/
namespace Localview
open EarlyReturn RecordLog StateRun List Function ConsequentialJournal

/-- Typed recovery work allowed by a durable consequential state. -/
inductive ConsequentialRecoveryDebtDisposition
  | noDispatchProven
  | observationRequired
  | commitOnly
  | historicalTerminal
  | reconciliationRequired

def ConsequentialRecoveryState.recoveryDebtDisposition :
    ConsequentialRecoveryState → ConsequentialRecoveryDebtDisposition
  | .admitted | .authorizedNotDispatched | .knownNotDispatched => .noDispatchProven
  | .dispatchPrepared | .possiblyDispatched | .outcomeObservedUnverified => .observationRequired
  | .verifiedUncommitted => .commitOnly
  | .compensated | .committed => .historicalTerminal
  | .compensationFailed => .reconciliationRequired

/-! ## Reconciliation -/

/-- What one piece of evidence says. -/
inductive ConsequentialPostconditionStatus
  | verifiedPass
  | verifiedFail
  | unknown
  deriving DecidableEq

/-- What was found of one contract. -/
structure ConsequentialPostconditionEvidence where
  contractRef : String
  status : ConsequentialPostconditionStatus
  receiptRef : String

/-- Predicate evidence bound to a journal-minted observation. -/
structure ConsequentialPostconditionReconciliationReceipt where
  observation : ConsequentialPostconditionObservationReceipt
  postconditions : List ConsequentialPostconditionEvidence

structure ConsequentialPostconditionReconciliationResult where
  worldOutcome : WorldOutcome
  postconditionsVerified : Bool
  journalEntry : ConsequentialJournalEntry
  postconditionReceipt : ActionPostconditionReceipt

/-- Why an observation is not reconciled. -/
inductive ConsequentialReconciliationError
  | unknownAction (actionId : Uuid)
  | providerIncarnationMismatch
  | targetIncarnationMismatch
  | reconciliationSnapshotMismatch
  | reconciliationSnapshotIncomplete
  | missingExpectedPostconditions
  | duplicateExpectedPostcondition (contractRef : String)
  | duplicatePostconditionEvidence (contractRef : String)
  | unexpectedPostconditionEvidence (contractRef : String)
  | missingPostconditionReceipt (contractRef : String)
  | journal (error : ConsequentialJournalError)

/-- The loop of `exact_expected_postconditions`. -/
def collectExpected : List String → Finset String →
    Except ConsequentialReconciliationError (Finset String)
  | [], expected => .ok expected
  | contractRef :: rest, expected => do
      rejectIf (contractRef ∈ expected) (.duplicateExpectedPostcondition contractRef)
      collectExpected rest (insert contractRef expected)

def exactExpectedPostconditions (envelope : CanonicalActionEnvelope) :
    Except ConsequentialReconciliationError (Finset String) := do
  rejectIf (envelope.metadata.expectedPostconditionContractRefs = [])
    .missingExpectedPostconditions
  collectExpected envelope.metadata.expectedPostconditionContractRefs ∅

/-- The loop of `exact_observed_postconditions`. -/
def collectObserved (expected : Finset String) : List ConsequentialPostconditionEvidence →
    (String → Option ConsequentialPostconditionEvidence) →
    Except ConsequentialReconciliationError (String → Option ConsequentialPostconditionEvidence)
  | [], observed => .ok observed
  | item :: rest, observed => do
      rejectIf (item.contractRef ∉ expected) (.unexpectedPostconditionEvidence item.contractRef)
      rejectIf (trimIsEmpty item.receiptRef = true) (.missingPostconditionReceipt item.contractRef)
      rejectIf ((observed item.contractRef).isSome)
        (.duplicatePostconditionEvidence item.contractRef)
      collectObserved expected rest (update observed item.contractRef (some item))

def exactObservedPostconditions (expected : Finset String)
    (evidence : List ConsequentialPostconditionEvidence) :
    Except ConsequentialReconciliationError
      (String → Option ConsequentialPostconditionEvidence) :=
  collectObserved expected evidence fun _ => none

/-- The draft that classified evidence makes: the contracts in their declared
order, split by status. -/
def reconciliationDraft (observation : ConsequentialPostconditionObservationReceipt)
    (expectedOrder : List String)
    (observed : String → Option ConsequentialPostconditionEvidence) :
    ActionPostconditionReceiptDraft :=
  let withStatus (status : ConsequentialPostconditionStatus) :=
    expectedOrder.filter fun contractRef =>
      (observed contractRef).any fun evidence => evidence.status == status
  let failedContractRefs := withStatus .verifiedFail
  let unresolvedUnknownContractRefs := expectedOrder.filter fun contractRef =>
    (observed contractRef).all fun evidence => evidence.status == .unknown
  let evidenceBindings := expectedOrder.filterMap fun contractRef =>
    (observed contractRef).map fun evidence =>
      { contractRef, receiptRef := evidence.receiptRef : ActionPostconditionEvidenceBinding }
  { actionId := observation.actionId, sessionId := observation.sessionId
    providerIncarnationRef := observation.providerIncarnationRef
    targetIncarnationRef := observation.targetIncarnationRef
    expectedPostconditionContractRefs := expectedOrder
    observationSnapshotCutRef := observation.snapshotCutRef
    reconciliationReceiptRef := observation.reconciliationReceiptRef
    evidenceReceiptRefs := evidenceBindings.map (·.receiptRef), evidenceBindings
    verifiedContractRefs := withStatus .verifiedPass, failedContractRefs
    verdict := partitionVerdict failedContractRefs unresolvedUnknownContractRefs
    unresolvedUnknownContractRefs, causalAssurance := observation.cause }

/-- Everything `reconcile_consequential_postconditions` checks before it writes:
the observation against the admitted envelope, the bridge's current snapshot
against the observation, and the evidence against the declared contracts. -/
def reconciliationDraftFor (currentSnapshot : SessionId → Option ReconciliationSnapshotReceipt)
    (j : ConsequentialJournal) (receipt : ConsequentialPostconditionReconciliationReceipt) :
    Except ConsequentialReconciliationError ActionPostconditionReceiptDraft := do
  let observation := receipt.observation
  let envelope ← okOr (admittedEnvelopeFor j.entries observation.actionId)
    (.unknownAction observation.actionId)
  rejectIf (observation.providerIncarnationRef ≠ envelope.metadata.providerIncarnationRef)
    .providerIncarnationMismatch
  rejectIf (observation.targetIncarnationRef ≠ envelope.metadata.targetIncarnationRef)
    .targetIncarnationMismatch
  rejectIf (observation.sessionId ≠ envelope.sessionId) .reconciliationSnapshotMismatch
  let snapshot ← okOr (currentSnapshot envelope.sessionId) .reconciliationSnapshotMismatch
  rejectIf (snapshot.receiptId ≠ observation.reconciliationReceiptRef ∨
      snapshot.snapshotCutRef ≠ observation.snapshotCutRef ∨
      snapshot.providerIncarnationRef ≠ observation.providerIncarnationRef ∨
      snapshot.targetIncarnationRef ≠ observation.targetIncarnationRef)
    .reconciliationSnapshotMismatch
  rejectIf (snapshot.completeness ≠ .established ∨ snapshot.incompletenessDebt ≠ [])
    .reconciliationSnapshotIncomplete
  let expected ← exactExpectedPostconditions envelope
  let observed ← exactObservedPostconditions expected receipt.postconditions
  .ok (reconciliationDraft observation envelope.metadata.expectedPostconditionContractRefs observed)

def reconcileConsequentialPostconditions (codec : EntryCodec)
    (currentSnapshot : SessionId → Option ReconciliationSnapshotReceipt)
    (j : ConsequentialJournal) (receipt : ConsequentialPostconditionReconciliationReceipt)
    (io : AppendIo) :
    Except ConsequentialReconciliationError ConsequentialPostconditionReconciliationResult ×
      ConsequentialJournal :=
  match reconciliationDraftFor currentSnapshot j receipt with
  | .error error => (.error error, j)
  | .ok draft =>
      match j.recordActionPostconditionReceipt codec draft io with
      | (.error error, j) => (.error (.journal error), j)
      | (.ok (journalEntry, postconditionReceipt), j) =>
          (.ok
            { worldOutcome := draft.verdict.worldOutcome
              postconditionsVerified := draft.verdict.postconditionsVerified, journalEntry
              postconditionReceipt }, j)

section
variable {mode : TransitionValidationMode} {entries : List ConsequentialJournalEntry} {a : Uuid}

/-- An action with any recovery state was admitted. -/
theorem admitted_of_state (h : History mode entries) {state : ConsequentialRecoveryState}
    (hs : recoveryStateFor entries a = some state) :
    ∃ envelope, admittedEnvelopeFor entries a = some envelope := by
  induction h generalizing state with
  | nil => cases hs
  | @snoc entries e _ _ _ hadm ih =>
    by_cases hprev : ∃ before, recoveryStateFor entries a = some before
    · obtain ⟨before, hbefore⟩ := hprev
      obtain ⟨envelope, henv⟩ := ih hbefore
      exact ⟨envelope, admittedEnvelopeFor_append_of_some henv _⟩
    · -- the first entry of an action is its admission
      have hnone : recoveryStateFor entries a = none := by
        cases hr : recoveryStateFor entries a with
        | none => rfl
        | some before => exact absurd ⟨before, hr⟩ hprev
      rw [recoveryStateFor_snoc] at hs
      by_cases ha : e.actionId = a
      · subst ha
        rw [admittedEnvelopeFor_snoc]
        generalize htr : e.transition = tr at hadm
        cases hadm with
        | @intent envelope _ _ =>
          cases henv : admittedEnvelopeFor entries e.actionId with
          | some first => exact ⟨first, rfl⟩
          | none => exact ⟨envelope, by simp [admittedEnvelopeFor, htr]⟩
        | authorization hs => rcases hs with hs | hs <;> · rw [hnone] at hs; cases hs
        | prepared hs _ => rw [hnone] at hs; cases hs
        | linearized hs => rw [hnone] at hs; cases hs
        | receipt hs _ _ => rw [hnone] at hs; cases hs
        | compensation hs => rw [hnone] at hs; cases hs
        | committed hs => rw [hnone] at hs; cases hs
        | legacyLinearized _ hs => rw [hnone] at hs; cases hs
        | legacyOutcome _ hs _ => rw [hnone] at hs; cases hs
      · rw [if_neg ha, hnone] at hs
        cases hs

/-- An action past PREPARED has a dispatch record an observation can name as its
cause, earlier than anything recorded next. -/
theorem cause_of_past (h : History mode entries)
    (hpast : beforePrepared (recoveryStateFor entries a) = false) :
    ∃ cause, postconditionObservationCauseFor entries a = some cause ∧
      cause.causalJournalSequence < entries.length + 1 := by
  induction h with
  | nil => cases hpast
  | @snoc entries e _ _ hseq hadm ih =>
    rw [postconditionObservationCauseFor_snoc, length_append, length_singleton]
    have hearlier : beforePrepared (recoveryStateFor entries a) = false →
        postconditionObservationCauseFor [e] a = none →
        ∃ cause, (postconditionObservationCauseFor [e] a).or
            (postconditionObservationCauseFor entries a) = some cause ∧
          cause.causalJournalSequence < entries.length + 1 + 1 := by
      intro hbefore hnone
      obtain ⟨cause, hcause, hlt⟩ := ih hbefore
      exact ⟨cause, by rw [hnone, hcause]; rfl, by omega⟩
    by_cases ha : e.actionId = a
    · subst ha
      rw [recoveryStateFor_snoc, if_pos rfl] at hpast
      generalize htr : e.transition = tr at hadm hpast
      have hnone : (∀ receipt, tr ≠ .dispatchPrepared receipt) →
          (∀ receipt, tr ≠ .dispatchLinearized receipt) →
          postconditionObservationCauseFor [e] e.actionId = none := by
        intro hp hl
        cases tr with
        | dispatchPrepared receipt => exact absurd rfl (hp receipt)
        | dispatchLinearized receipt => exact absurd rfl (hl receipt)
        | _ => simp [postconditionObservationCauseFor, htr]
      cases hadm with
      | intent _ _ => cases hpast
      | authorization _ => cases hpast
      | @prepared receipt _ _ _ =>
        refine ⟨.dispatchPreparedUncertain e.journalSequence receipt.receiptRef, ?_, ?_⟩
        · simp [postconditionObservationCauseFor, htr]
        · show e.journalSequence < _
          omega
      | @linearized receipt _ =>
        refine ⟨.dispatchLinearized e.journalSequence receipt.receiptRef, ?_, ?_⟩
        · simp [postconditionObservationCauseFor, htr]
        · show e.journalSequence < _
          omega
      | @legacyLinearized receipt _ _ =>
        refine ⟨.dispatchLinearized e.journalSequence receipt.receiptRef, ?_, ?_⟩
        · simp [postconditionObservationCauseFor, htr]
        · show e.journalSequence < _
          omega
      | @receipt _ _ state hs hobs _ =>
        refine hearlier ?_ (hnone (by intro r h; cases h) (by intro r h; cases h))
        rw [hs]
        cases state <;> first | rfl | cases hobs
      | compensation hs =>
        exact hearlier (by rw [hs]; rfl) (hnone (by intro r h; cases h) (by intro r h; cases h))
      | committed hs =>
        exact hearlier (by rw [hs]; rfl) (hnone (by intro r h; cases h) (by intro r h; cases h))
      | @legacyOutcome _ _ _ _ state _ hs hstate =>
        refine hearlier ?_ (hnone (by intro r h; cases h) (by intro r h; cases h))
        rw [hs]
        rcases hstate with hobs | rfl
        · cases state <;> first | rfl | cases hobs
        · rfl
    · rw [recoveryStateFor_snoc, if_neg ha] at hpast
      exact hearlier hpast (by simp [postconditionObservationCauseFor, ha])

end

/-! ## What pass evidence collects to -/

theorem collectExpected_ok {refs : List String} {expected : Finset String} (hnd : refs.Nodup)
    (hnew : ∀ c ∈ refs, c ∉ expected) :
    collectExpected refs expected = .ok (expected ∪ refs.toFinset) := by
  induction refs generalizing expected with
  | nil => simp [collectExpected]
  | cons c rest ih =>
    obtain ⟨hc, hrest⟩ := nodup_cons.mp hnd
    have hstep : collectExpected rest (insert c expected) =
        .ok (insert c expected ∪ rest.toFinset) := by
      refine ih hrest fun d hd hmem => ?_
      rcases Finset.mem_insert.mp hmem with rfl | hmem
      · exact hc hd
      · exact hnew d (mem_cons_of_mem _ hd) hmem
    rw [collectExpected, rejectIf, if_neg (hnew c mem_cons_self), toFinset_cons,
      Finset.union_insert, ← Finset.insert_union]
    exact hstep

/-- Distinct, expected, non-blank evidence is collected item by item. -/
theorem collectObserved_ok {expected : Finset String}
    {items : List ConsequentialPostconditionEvidence}
    {observed : String → Option ConsequentialPostconditionEvidence}
    (hnd : (items.map (·.contractRef)).Nodup)
    (hitems : ∀ item ∈ items, item.contractRef ∈ expected ∧ trimIsEmpty item.receiptRef = false ∧
      observed item.contractRef = none) :
    ∃ result, collectObserved expected items observed = .ok result := by
  induction items generalizing observed with
  | nil => exact ⟨observed, rfl⟩
  | cons item rest ih =>
    obtain ⟨hfirst, hrest⟩ : item.contractRef ∉ rest.map (·.contractRef) ∧
        (rest.map (·.contractRef)).Nodup := nodup_cons.mp hnd
    obtain ⟨hexp, hblank, hnone⟩ := hitems item mem_cons_self
    have hlater : ∀ next ∈ rest, next.contractRef ∈ expected ∧
        trimIsEmpty next.receiptRef = false ∧
        update observed item.contractRef (some item) next.contractRef = none := by
      intro next hnext
      obtain ⟨h₁, h₂, h₃⟩ := hitems next (mem_cons_of_mem _ hnext)
      have hne : next.contractRef ≠ item.contractRef := by
        intro heq
        apply hfirst
        rw [← heq]
        exact mem_map_of_mem hnext
      exact ⟨h₁, h₂, by rw [update_of_ne hne]; exact h₃⟩
    obtain ⟨result, hok⟩ := ih hrest hlater
    refine ⟨result, ?_⟩
    rw [collectObserved]
    simp only [rejectIf, hexp, hblank, hnone, not_true_eq_false, if_false, Option.isSome_none,
      Bool.false_eq_true]
    exact hok

/-! ## What is observed -/

def evidenceFor (evidence : List ConsequentialPostconditionEvidence) (contractRef : String) :
    Option ConsequentialPostconditionEvidence :=
  evidence.find? fun item => item.contractRef = contractRef

/-- Evidence that can be collected: distinct contracts, all expected, with receipts. -/
structure Collectable (expected : Finset String)
    (evidence : List ConsequentialPostconditionEvidence) : Prop where
  nodup : (evidence.map (·.contractRef)).Nodup
  expected : ∀ item ∈ evidence, item.contractRef ∈ expected
  receipts : ∀ item ∈ evidence, trimIsEmpty item.receiptRef = false

section
variable {expected : Finset String} {evidence evidence' : List ConsequentialPostconditionEvidence}
  {item : ConsequentialPostconditionEvidence} {refs : List String} {c : String}
  {observed result : String → Option ConsequentialPostconditionEvidence}

theorem evidenceFor_eq_some (hnd : (evidence.map (·.contractRef)).Nodup) :
    evidenceFor evidence c = some item ↔ item ∈ evidence ∧ item.contractRef = c := by
  induction evidence with
  | nil => simp [evidenceFor]
  | cons first rest ih =>
    obtain ⟨hfirst, hrest⟩ := nodup_cons.mp hnd
    unfold evidenceFor at ih ⊢
    by_cases hc : first.contractRef = c
    · rw [find?_cons_of_pos (by simpa using hc), Option.some.injEq, mem_cons]
      constructor
      · rintro rfl
        exact ⟨.inl rfl, hc⟩
      · rintro ⟨rfl | hmem, hitem⟩
        · rfl
        · exact absurd (mem_map.mpr ⟨item, hmem, hitem.trans hc.symm⟩) hfirst
    · rw [find?_cons_of_neg (by simpa using hc), ih hrest, mem_cons]
      refine and_congr_left fun hitem => (or_iff_right ?_).symm
      rintro rfl
      exact hc hitem

/-- The loop collects what is collectable, and nothing else. -/
theorem collectObserved_cases (h : collectObserved expected evidence observed = .ok result) :
    (∀ item ∈ evidence, item.contractRef ∈ expected ∧ trimIsEmpty item.receiptRef = false ∧
      observed item.contractRef = none) ∧ (evidence.map (·.contractRef)).Nodup ∧
      ∀ c, result c = (evidenceFor evidence c).or (observed c) := by
  induction evidence generalizing observed with
  | nil =>
    cases h
    exact ⟨by simp, nodup_nil, fun c => rfl⟩
  | cons first rest ih =>
    simp only [collectObserved, rejectIf_bind_eq_ok, not_not, Bool.not_eq_true,
      Option.isSome_eq_false_iff, Option.isNone_iff_eq_none] at h
    obtain ⟨hexpected, hblank, hnone, hrest⟩ := h
    obtain ⟨hitems, hnd, hresult⟩ := ih hrest
    have hnew : first.contractRef ∉ rest.map (·.contractRef) := by
      intro hmem
      obtain ⟨later, hlater, heq⟩ := mem_map.mp hmem
      have hseen := (hitems later hlater).2.2
      rw [heq, update_self] at hseen
      cases hseen
    refine ⟨?_, nodup_cons.mpr ⟨hnew, hnd⟩, ?_⟩
    · intro item hitem
      rcases mem_cons.mp hitem with rfl | hitem
      · exact ⟨hexpected, hblank, hnone⟩
      · obtain ⟨h₁, h₂, h₃⟩ := hitems item hitem
        rw [update_of_ne fun heq => hnew (mem_map.mpr ⟨item, hitem, heq⟩)] at h₃
        exact ⟨h₁, h₂, h₃⟩
    · intro c
      rw [hresult c]
      unfold evidenceFor
      by_cases hc : first.contractRef = c
      · -- the first item is the only one of its contract
        subst hc
        have hlater : rest.find? (fun item => item.contractRef = first.contractRef) = none := by
          rw [find?_eq_none]
          intro item hitem heq
          exact hnew (mem_map.mpr ⟨item, hitem, of_decide_eq_true heq⟩)
        rw [hlater, update_self, find?_cons_of_pos (by simp)]
        rfl
      · rw [update_of_ne (Ne.symm hc), find?_cons_of_neg (by simpa using hc)]

theorem exactObserved_eq_ok : exactObservedPostconditions expected evidence = .ok observed ↔
    Collectable expected evidence ∧ observed = evidenceFor evidence := by
  constructor
  · intro h
    obtain ⟨hitems, hnd, hresult⟩ := collectObserved_cases h
    refine ⟨⟨hnd, fun item hi => (hitems item hi).1, fun item hi => (hitems item hi).2.1⟩, ?_⟩
    funext c
    rw [hresult c, Option.or_none]
  · rintro ⟨hcollectable, rfl⟩
    obtain ⟨result, hok⟩ := @collectObserved_ok expected evidence (fun _ => none) hcollectable.nodup
      fun item hi => ⟨hcollectable.expected item hi, hcollectable.receipts item hi, rfl⟩
    obtain ⟨-, -, hresult⟩ := collectObserved_cases hok
    refine hok.trans (congrArg Except.ok (funext fun c => ?_))
    rw [hresult c, Option.or_none]

/-- The declared contracts, where each is declared once. -/
theorem collectExpected_cases {before after : Finset String}
    (h : collectExpected refs before = .ok after) :
    refs.Nodup ∧ (∀ c ∈ refs, c ∉ before) ∧ after = before ∪ refs.toFinset := by
  have hnew : refs.Nodup ∧ ∀ c ∈ refs, c ∉ before := by
    induction refs generalizing before with
    | nil => simp
    | cons first rest ih =>
      simp only [collectExpected, rejectIf_bind_eq_ok] at h
      obtain ⟨hfirst, hrest⟩ := h
      obtain ⟨hnd, hnot⟩ := ih hrest
      refine ⟨nodup_cons.mpr ⟨fun hmem => ?_, hnd⟩, ?_⟩
      · exact hnot first hmem (Finset.mem_insert_self _ _)
      · intro c hc
        rcases mem_cons.mp hc with rfl | hc
        · exact hfirst
        · exact fun hmem => hnot c hc (Finset.mem_insert_of_mem hmem)
  refine ⟨hnew.1, hnew.2, ?_⟩
  rw [collectExpected_ok hnew.1 hnew.2] at h
  exact (Except.ok.inj h).symm

theorem exactExpected_eq_ok {envelope : CanonicalActionEnvelope} :
    exactExpectedPostconditions envelope = .ok expected ↔
      envelope.metadata.expectedPostconditionContractRefs ≠ [] ∧
      envelope.metadata.expectedPostconditionContractRefs.Nodup ∧
      expected = envelope.metadata.expectedPostconditionContractRefs.toFinset := by
  rw [exactExpectedPostconditions, rejectIf_bind_eq_ok]
  refine and_congr_right fun _ => ?_
  constructor
  · intro h
    obtain ⟨hnd, -, hset⟩ := collectExpected_cases h
    exact ⟨hnd, by rw [hset, Finset.empty_union]⟩
  · rintro ⟨hnd, rfl⟩
    rw [collectExpected_ok hnd (by simp), Finset.empty_union]

theorem Collectable.perm (h : Collectable expected evidence) (hperm : evidence.Perm evidence') :
    Collectable expected evidence' ∧ evidenceFor evidence' = evidenceFor evidence := by
  have hnd : (evidence'.map (·.contractRef)).Nodup := (hperm.map _).nodup_iff.mp h.nodup
  refine ⟨⟨hnd, ?_, ?_⟩, ?_⟩
  · exact fun item hi => h.expected item (hperm.mem_iff.mpr hi)
  · exact fun item hi => h.receipts item (hperm.mem_iff.mpr hi)
  · refine funext fun c => Option.ext fun item => ?_
    rw [evidenceFor_eq_some hnd, evidenceFor_eq_some h.nodup, hperm.mem_iff]

end

/-! ## The draft -/

section
variable {observation : ConsequentialPostconditionObservationReceipt} {order : List String}
  {observed : String → Option ConsequentialPostconditionEvidence}
  {status : ConsequentialPostconditionStatus}

/-- The declared contracts whose evidence says so. -/
def contractsWith (order : List String)
    (observed : String → Option ConsequentialPostconditionEvidence)
    (status : ConsequentialPostconditionStatus) : List String :=
  order.filter fun contractRef => (observed contractRef).any fun item => item.status == status

theorem mem_contractsWith {c : String} : c ∈ contractsWith order observed status ↔
    c ∈ order ∧ ∃ item, observed c = some item ∧ item.status = status := by
  unfold contractsWith
  rw [mem_filter]
  refine and_congr_right fun _ => ?_
  cases observed c <;> simp

/-- Passed, failed and unresolved: each declared contract is in one of the three. -/
theorem reconciliationDraft_partition (order : List String) :
    ((reconciliationDraft observation order observed).verifiedContractRefs ++
      (reconciliationDraft observation order observed).failedContractRefs ++
      (reconciliationDraft observation order observed).unresolvedUnknownContractRefs).Perm
        order := by
  show (contractsWith order observed .verifiedPass ++ contractsWith order observed .verifiedFail ++
    order.filter fun c => (observed c).all fun item => item.status == .unknown).Perm order
  induction order with
  | nil => exact List.Perm.refl _
  | cons c rest ih =>
    have hlast : ∀ l₁ l₂ l₃ : List String, (l₁ ++ (l₂ ++ l₃)).Perm rest →
        (l₁ ++ (l₂ ++ c :: l₃)).Perm (c :: rest) := by
      intro l₁ l₂ l₃ h
      rw [← append_assoc] at h ⊢
      exact perm_middle.trans (h.cons c)
    unfold contractsWith at ih ⊢
    rw [append_assoc] at ih ⊢
    cases hobserved : observed c with
    | none => simpa [hobserved] using hlast _ _ _ ih
    | some item =>
      cases hstatus : item.status with
      | verifiedPass => simpa [hobserved, hstatus] using ih
      | verifiedFail => simpa [hobserved, hstatus] using perm_middle.trans (ih.cons c)
      | unknown => simpa [hobserved, hstatus] using hlast _ _ _ ih

theorem reconciliationDraft_bindings :
    (reconciliationDraft observation order observed).evidenceBindings.map (·.contractRef) =
      order.filter fun c => (observed c).isSome := by
  show (order.filterMap fun c => (observed c).map fun item =>
    ({ contractRef := c, receiptRef := item.receiptRef } :
      ActionPostconditionEvidenceBinding)).map (·.contractRef) = _
  induction order with
  | nil => rfl
  | cons c rest ih =>
    cases hobserved : observed c with
    | none => simpa [hobserved] using ih
    | some item => simpa [hobserved] using ih

/-- The verdict speaks for every declared contract, or against one. -/
theorem reconciliationDraft_verdict :
    ((reconciliationDraft observation order observed).verdict = .verifiedExpected ↔
      ∀ c ∈ order, ∃ item, observed c = some item ∧ item.status = .verifiedPass) ∧
    ((reconciliationDraft observation order observed).verdict = .verifiedUnexpected ↔
      ∃ c ∈ order, ∃ item, observed c = some item ∧ item.status = .verifiedFail) := by
  have hfailed : contractsWith order observed .verifiedFail ≠ [] ↔
      ∃ c ∈ order, ∃ item, observed c = some item ∧ item.status = .verifiedFail := by
    constructor
    · intro h
      obtain ⟨c, hc⟩ := exists_mem_of_ne_nil _ h
      exact ⟨c, mem_contractsWith.mp hc⟩
    · rintro ⟨c, hc⟩
      exact ne_nil_of_mem (mem_contractsWith.mpr hc)
  have hpass : contractsWith order observed .verifiedFail = [] →
      (order.filter (fun c => (observed c).all fun item => item.status == .unknown) = [] ↔
        ∀ c ∈ order, ∃ item, observed c = some item ∧ item.status = .verifiedPass) := by
    intro hnone
    rw [filter_eq_nil_iff]
    refine forall₂_congr fun c hc => ?_
    have hno : ¬ ∃ item, observed c = some item ∧ item.status = .verifiedFail := fun h =>
      not_mem_nil (hnone ▸ mem_contractsWith.mpr ⟨hc, h⟩)
    cases hobserved : observed c with
    | none => simp
    | some item =>
      cases hstatus : item.status with
      | verifiedPass => simp [hstatus]
      | verifiedFail => exact absurd ⟨item, hobserved, hstatus⟩ hno
      | unknown => simp [hstatus]
  have hverdict : (reconciliationDraft observation order observed).verdict =
      partitionVerdict (contractsWith order observed .verifiedFail)
        (order.filter fun c => (observed c).all fun item => item.status == .unknown) := rfl
  rw [hverdict, ← hfailed]
  unfold partitionVerdict
  by_cases hempty : contractsWith order observed .verifiedFail = []
  · rw [if_neg (not_not.mpr hempty), ← hpass hempty]
    constructor
    · split <;> simp_all
    · split <;> simp_all
  · rw [if_pos hempty]
    refine ⟨⟨(fun h => nomatch h), fun hall => ?_⟩, by simp [hempty]⟩
    obtain ⟨c, hc, item, hitem, hstatus⟩ := hfailed.mp hempty
    obtain ⟨item', hitem', hstatus'⟩ := hall c hc
    rw [hitem] at hitem'
    cases hitem'
    rw [hstatus] at hstatus'
    cases hstatus'

end

/-- What passes the checks before the write. -/
theorem reconciliationDraftFor_eq_ok
    {currentSnapshot : SessionId → Option ReconciliationSnapshotReceipt} {j : ConsequentialJournal}
    {receipt : ConsequentialPostconditionReconciliationReceipt}
    {draft : ActionPostconditionReceiptDraft} :
    reconciliationDraftFor currentSnapshot j receipt = .ok draft ↔
      ∃ envelope snapshot,
        admittedEnvelopeFor j.entries receipt.observation.actionId = some envelope ∧
        receipt.observation.providerIncarnationRef = envelope.metadata.providerIncarnationRef ∧
        receipt.observation.targetIncarnationRef = envelope.metadata.targetIncarnationRef ∧
        receipt.observation.sessionId = envelope.sessionId ∧
        currentSnapshot envelope.sessionId = some snapshot ∧
        (snapshot.receiptId = receipt.observation.reconciliationReceiptRef ∧
          snapshot.snapshotCutRef = receipt.observation.snapshotCutRef ∧
          snapshot.providerIncarnationRef = receipt.observation.providerIncarnationRef ∧
          snapshot.targetIncarnationRef = receipt.observation.targetIncarnationRef) ∧
        (snapshot.completeness = .established ∧ snapshot.incompletenessDebt = []) ∧
        envelope.metadata.expectedPostconditionContractRefs ≠ [] ∧
        envelope.metadata.expectedPostconditionContractRefs.Nodup ∧
        Collectable envelope.metadata.expectedPostconditionContractRefs.toFinset
          receipt.postconditions ∧
        draft = reconciliationDraft receipt.observation
          envelope.metadata.expectedPostconditionContractRefs
          (evidenceFor receipt.postconditions) := by
  simp only [reconciliationDraftFor, okOr_bind_eq_ok, rejectIf_bind_eq_ok, not_or, not_not, ne_eq]
  simp only [bind_eq_ok, exactExpected_eq_ok, exactObserved_eq_ok]
  constructor
  · rintro ⟨envelope, henv, hp, ht, hs, snapshot, hcurrent, hsame, hwhole, _, ⟨hne, hnd, rfl⟩, _,
      ⟨hcollectable, rfl⟩, hdraft⟩
    exact ⟨envelope, snapshot, henv, hp, ht, hs, hcurrent, hsame, hwhole, hne, hnd, hcollectable,
      (Except.ok.inj hdraft).symm⟩
  · rintro ⟨envelope, snapshot, henv, hp, ht, hs, hcurrent, hsame, hwhole, hne, hnd, hcollectable,
      rfl⟩
    exact ⟨envelope, henv, hp, ht, hs, snapshot, hcurrent, hsame, hwhole, _, ⟨hne, hnd, rfl⟩, _,
      ⟨hcollectable, rfl⟩, rfl⟩

/-- Pass evidence: for every expected contract exactly one item, passing and
with a receipt. -/
structure PassEvidence (expected : List String)
    (evidence : List ConsequentialPostconditionEvidence) : Prop where
  contracts : (evidence.map (·.contractRef)).Perm expected
  pass : ∀ item ∈ evidence, item.status = .verifiedPass
  receipts : ∀ item ∈ evidence, trimIsEmpty item.receiptRef = false

theorem PassEvidence.collectable {expected : List String}
    {evidence : List ConsequentialPostconditionEvidence} (h : PassEvidence expected evidence)
    (hnd : expected.Nodup) : Collectable expected.toFinset evidence :=
  { nodup := h.contracts.nodup_iff.mpr hnd
    expected := fun _ hitem =>
      mem_toFinset.mpr (h.contracts.mem_iff.mp (mem_map_of_mem hitem))
    receipts := h.receipts }

/-- **Pass evidence verifies every expected contract.** -/
theorem PassEvidence.verdict {expected : List String}
    {evidence : List ConsequentialPostconditionEvidence} (h : PassEvidence expected evidence)
    (hnd : expected.Nodup) (observation : ConsequentialPostconditionObservationReceipt) :
    (reconciliationDraft observation expected (evidenceFor evidence)).verdict =
      .verifiedExpected := by
  refine reconciliationDraft_verdict.1.mpr fun c hc => ?_
  obtain ⟨item, hitem, hcontract⟩ := mem_map.mp (h.contracts.mem_iff.mpr hc)
  have hfound := (evidenceFor_eq_some (h.collectable hnd).nodup).mpr ⟨hitem, hcontract⟩
  exact ⟨item, hfound, h.pass item hitem⟩

/-! ## Working the debt off -/

/-- A snapshot that answers an observation permit: captured for its lineage and
its cut, established and without debt. -/
structure EstablishedSnapshot (permit : ConsequentialPostconditionObservationPermit)
    (snapshot : ReconciliationSnapshotReceipt) : Prop where
  provider : snapshot.providerIncarnationRef = permit.providerIncarnationRef
  target : snapshot.targetIncarnationRef = permit.targetIncarnationRef
  cut : snapshot.snapshotCutRef = permit.snapshotCutRef
  receiptId : trimIsEmpty snapshot.receiptId = false
  completeness : snapshot.completeness = .established
  debt : snapshot.incompletenessDebt = []

/-- The permit `begin_postcondition_observation` mints. -/
def observationPermitFor (journalInstanceRef a observationRef : Uuid)
    (envelope : CanonicalActionEnvelope) (cause : ConsequentialPostconditionObservationCause) :
    ConsequentialPostconditionObservationPermit :=
  { journalInstanceRef, observationRef, actionId := a, sessionId := envelope.sessionId
    providerIncarnationRef := envelope.metadata.providerIncarnationRef
    targetIncarnationRef := envelope.metadata.targetIncarnationRef
    snapshotCutRef := postdispatchCutRef journalInstanceRef a cause.causalJournalSequence
      observationRef
    cause }

/-- The grant that goes with it. -/
def ConsequentialPostconditionObservationPermit.grant
    (permit : ConsequentialPostconditionObservationPermit) : LivePostconditionObservationGrant :=
  { observationRef := permit.observationRef, sessionId := permit.sessionId
    providerIncarnationRef := permit.providerIncarnationRef
    targetIncarnationRef := permit.targetIncarnationRef, snapshotCutRef := permit.snapshotCutRef
    cause := permit.cause }

/-- No grant of the action is live. -/
structure NoLiveGrants (j : ConsequentialJournal) (a : Uuid) : Prop where
  prepared : j.liveDispatchPrepared a = none
  execution : j.liveDispatchExecution a = none
  observation : j.livePostconditionObservation a = none

section
variable {codec : EntryCodec} {j : ConsequentialJournal} {ref a observationRef : Uuid}
  {envelope : CanonicalActionEnvelope} {cause : ConsequentialPostconditionObservationCause}

/-- Without grants, observing an observable action of known lineage begins. -/
theorem beginPostconditionObservation_ok (hgrants : NoLiveGrants j a)
    {state : ConsequentialRecoveryState} (hs : recoveryStateFor j.entries a = some state)
    (hobs : state.observable = true) (henv : admittedEnvelopeFor j.entries a = some envelope)
    (hcause : postconditionObservationCauseFor j.entries a = some cause) :
    j.beginPostconditionObservation a observationRef =
      (.ok (observationPermitFor j.journalInstanceRef a observationRef envelope cause),
        { j with
          livePostconditionObservation := update j.livePostconditionObservation a
            (some (observationPermitFor j.journalInstanceRef a observationRef envelope cause).grant) }) := by
  unfold beginPostconditionObservation
  have hstate : ¬ (some state ≠ some ConsequentialRecoveryState.dispatchPrepared ∧
      some state ≠ some .possiblyDispatched ∧ some state ≠ some .outcomeObservedUnverified) := by
    cases state <;> simp [ConsequentialRecoveryState.observable] at hobs ⊢
  simp only [hgrants.prepared, hgrants.execution, hgrants.observation, hs, henv, hcause, hstate,
    Option.isSome_none, Bool.false_eq_true, or_self, if_false]
  rfl

theorem consumeObservationPermit_ok {permit : ConsequentialPostconditionObservationPermit}
    (hinst : permit.journalInstanceRef = j.journalInstanceRef)
    (hgrant : j.livePostconditionObservation permit.actionId = some permit.grant) :
    j.consumeObservationPermit permit =
      (.ok (), { j with
        livePostconditionObservation :=
          update j.livePostconditionObservation permit.actionId none }) := by
  unfold consumeObservationPermit
  rw [if_neg (not_not.mpr hinst), hgrant]
  simp [ConsequentialPostconditionObservationPermit.grant]

/-- The observation receipt an answering snapshot completes a permit to. -/
def observationReceiptFor (permit : ConsequentialPostconditionObservationPermit)
    (snapshot : ReconciliationSnapshotReceipt) : ConsequentialPostconditionObservationReceipt :=
  { actionId := permit.actionId, sessionId := permit.sessionId
    providerIncarnationRef := permit.providerIncarnationRef
    targetIncarnationRef := permit.targetIncarnationRef, snapshotCutRef := snapshot.snapshotCutRef
    reconciliationReceiptRef := snapshot.receiptId, cause := permit.cause }

theorem bindObservedSnapshot_ok {permit : ConsequentialPostconditionObservationPermit}
    {snapshot : ReconciliationSnapshotReceipt} (h : EstablishedSnapshot permit snapshot) :
    bindObservedSnapshot permit snapshot = .ok (observationReceiptFor permit snapshot) := by
  unfold bindObservedSnapshot
  simp [rejectIf, h.provider, h.target, h.cut, h.receiptId, observationReceiptFor, bind,
    Except.bind]

/-- **The two agree**: the receipt that is drafted is one the history supports. -/
theorem receiptMatches_of_draft {observation : ConsequentialPostconditionObservationReceipt}
    {evidence : List ConsequentialPostconditionEvidence} (hcont : Continues j)
    (henv : admittedEnvelopeFor j.entries observation.actionId = some envelope)
    (hp : observation.providerIncarnationRef = envelope.metadata.providerIncarnationRef)
    (ht : observation.targetIncarnationRef = envelope.metadata.targetIncarnationRef)
    (hs : observation.sessionId = envelope.sessionId)
    (hcut : trimIsEmpty observation.snapshotCutRef = false)
    (hfresh : observation.snapshotCutRef ≠ envelope.metadata.preconditionSnapshotCutRef)
    (hblank : trimIsEmpty observation.reconciliationReceiptRef = false)
    (hcause : postconditionObservationCauseFor j.entries observation.actionId =
      some observation.cause)
    (hprior : observation.cause.causalJournalSequence < j.entries.length + 1)
    (hne : envelope.metadata.expectedPostconditionContractRefs ≠ [])
    (hnd : envelope.metadata.expectedPostconditionContractRefs.Nodup)
    (hcollectable : Collectable envelope.metadata.expectedPostconditionContractRefs.toFinset
      evidence) :
    ReceiptMatches j.entries observation.actionId
      ((reconciliationDraft observation envelope.metadata.expectedPostconditionContractRefs
        (evidenceFor evidence)).complete j.nextSequence) envelope := by
  have hpartition := @reconciliationDraft_partition observation (evidenceFor evidence)
    envelope.metadata.expectedPostconditionContractRefs
  have hbound := @reconciliationDraft_bindings observation
    envelope.metadata.expectedPostconditionContractRefs (evidenceFor evidence)
  have hnext := hcont.nextSequence
  exact
    { admitted := henv, action := rfl, session := hs, provider := hp, target := ht, expected := rfl
      cut := hcut, cutFresh := hfresh, reconciliation := hblank, completion := hnext
      receiptRef := by
        show postconditionReceiptRef observation.actionId j.nextSequence = _
        rw [hnext]
      causePrior := hprior
      cause := hcause
      contractsNodup := hnd
      contractsNonempty := hne
      partitionNodup := hpartition.nodup_iff.mpr hnd
      partition := toFinset_eq_of_perm _ _ hpartition
      verdict := rfl
      bindingsNodup := by
        show (List.map _ (reconciliationDraft observation _ _).evidenceBindings).Nodup
        rw [hbound]
        exact hnd.filter _
      bindings := by
        intro b hb
        obtain ⟨c, hc, hitem⟩ := mem_filterMap.mp hb
        obtain ⟨item, hfound, rfl⟩ := Option.map_eq_some_iff.mp hitem
        obtain ⟨hmem, -⟩ := (evidenceFor_eq_some hcollectable.nodup).mp hfound
        exact ⟨hc, hcollectable.receipts item hmem⟩
      evidenceSummary := rfl
      decisive := by
        intro c hc
        show c ∈ List.map _ (reconciliationDraft observation _ _).evidenceBindings
        rw [hbound, mem_filter]
        -- a contract that passed or failed has evidence
        have hitem : c ∈ envelope.metadata.expectedPostconditionContractRefs ∧
            ∃ item, evidenceFor evidence c = some item := by
          rcases mem_append.mp hc with hc | hc
          · obtain ⟨hmem, item, hfound, -⟩ := mem_contractsWith.mp hc
            exact ⟨hmem, item, hfound⟩
          · obtain ⟨hmem, item, hfound, -⟩ := mem_contractsWith.mp hc
            exact ⟨hmem, item, hfound⟩
        obtain ⟨hmem, item, hfound⟩ := hitem
        exact ⟨hmem, by rw [hfound]; rfl⟩ }

end

/-- The minted cut ends in the observation's fresh identifier. -/
theorem postdispatchCutRef_suffix (ref a : Uuid) (sequence : Nat) (observationRef : Uuid) :
    observationRef.display.toList <:+ (postdispatchCutRef ref a sequence observationRef).toList := by
  unfold postdispatchCutRef
  rw [String.toList_append]
  exact suffix_append _ _

theorem trimIsEmpty_postdispatchCutRef (ref a : Uuid) (sequence : Nat) (observationRef : Uuid) :
    trimIsEmpty (postdispatchCutRef ref a sequence observationRef) = false := by
  unfold trimIsEmpty postdispatchCutRef
  simp only [String.toList_append, all_append, Bool.and_eq_false_iff]
  exact .inl (.inl (.inl (.inl (.inl (.inl (.inl (by decide)))))))

/-- The states `requires_reconciliation` names, but the failed compensation, are
those an observation may begin from. -/
theorem observable_of_requiresReconciliation {j : ConsequentialJournal} {a : Uuid}
    (h : j.requiresReconciliation a = some true)
    (hcomp : recoveryStateFor j.entries a ≠ some .compensationFailed) :
    ∃ state, recoveryStateFor j.entries a = some state ∧ state.observable = true ∧
      state.recoveryDebtDisposition = .observationRequired := by
  unfold requiresReconciliation at h
  cases hs : recoveryStateFor j.entries a with
  | none => rw [hs] at h; cases h
  | some state =>
    rw [hs] at h hcomp
    refine ⟨state, rfl, ?_⟩
    cases state with
    | dispatchPrepared => exact ⟨rfl, rfl⟩
    | possiblyDispatched => exact ⟨rfl, rfl⟩
    | outcomeObservedUnverified => exact ⟨rfl, rfl⟩
    | compensationFailed => exact absurd rfl hcomp
    | _ => simp at h

/-- **Observation debt can be worked off.**  In every journal reached from any
opened file, an action without live grants that requires reconciliation, and
whose compensation has not failed, can be observed; and if its envelope declares
contracts, each once, and the observation's identifier is fresh, passing
evidence for them against the established snapshot is accepted and leaves the
action verified. -/
theorem observation_debt_worked_off (codec : EntryCodec) (faults : LoadFaults) (ref : Uuid)
    (file : Bytes) (j₀ : ConsequentialJournal)
    (hopen : (openJournal codec faults ref file).1 = .ok j₀) (tr : List CallLabel)
    (j : ConsequentialJournal) (hrun : Run (CallStep codec) j₀ tr j) (a : Uuid)
    (hgrants : NoLiveGrants j a) (hdebt : j.requiresReconciliation a = some true)
    (hcomp : recoveryStateFor j.entries a ≠ some .compensationFailed) (observationRef : Uuid) :
    ∃ permit j₁ envelope,
      j.beginPostconditionObservation a observationRef = (.ok permit, j₁) ∧
      admittedEnvelopeFor j.entries a = some envelope ∧
      ∀ snapshot evidence (currentSnapshot : SessionId → Option ReconciliationSnapshotReceipt) io,
        envelope.metadata.expectedPostconditionContractRefs ≠ [] →
        envelope.metadata.expectedPostconditionContractRefs.Nodup →
        ¬ observationRef.display.toList <:+:
          envelope.metadata.preconditionSnapshotCutRef.toList →
        EstablishedSnapshot permit snapshot →
        PassEvidence envelope.metadata.expectedPostconditionContractRefs evidence →
        currentSnapshot envelope.sessionId = some snapshot →
        io.fault = none → (∀ e, ∃ line, codec.toVec e = .ok line) →
        ∃ observation j₂ result j₃,
          j₁.completePostconditionObservation permit snapshot = (.ok observation, j₂) ∧
          reconcileConsequentialPostconditions codec currentSnapshot j₂ ⟨observation, evidence⟩ io =
            (.ok result, j₃) ∧
          result.postconditionsVerified = true ∧
          recoveryStateFor j₃.entries a = some .verifiedUncommitted := by
  have hcont : Continues j := hrun.invariant (fun _ _ _ h hs => h.step hs) (continues_of_open hopen).1
  obtain ⟨state, hs, hobs, -⟩ := observable_of_requiresReconciliation hdebt hcomp
  obtain ⟨envelope, henv⟩ := admitted_of_state hcont.history hs
  have hpast : beforePrepared (recoveryStateFor j.entries a) = false := by
    rw [hs]
    cases state <;> first | rfl | cases hobs
  obtain ⟨cause, hcause, hprior⟩ := cause_of_past hcont.history hpast
  refine ⟨_, _, envelope, beginPostconditionObservation_ok hgrants hs hobs henv hcause, henv, ?_⟩
  intro snapshot evidence currentSnapshot io hnonempty hnd hfresh hsnapshot hpass hcurrent hio henc
  -- completing consumes the grant just made, and nothing else has changed
  let permit := observationPermitFor j.journalInstanceRef a observationRef envelope cause
  let j₁ : ConsequentialJournal := { j with
    livePostconditionObservation :=
      update j.livePostconditionObservation a (some permit.grant) }
  let j₂ : ConsequentialJournal := { j₁ with
    livePostconditionObservation := update j₁.livePostconditionObservation a none }
  have hcomplete : j₁.completePostconditionObservation permit snapshot =
      (.ok (observationReceiptFor permit snapshot), j₂) := by
    unfold completePostconditionObservation
    have hgrant : j₁.livePostconditionObservation permit.actionId = some permit.grant :=
      update_self _ _ _
    rw [consumeObservationPermit_ok rfl hgrant, bindObservedSnapshot_ok hsnapshot]
    rfl
  have hcont₂ : Continues j₂ := ⟨hcont.history, hcont.nextSequence⟩
  have hcollectable := hpass.collectable hnd
  have hdraft : reconciliationDraftFor currentSnapshot j₂
      ⟨observationReceiptFor permit snapshot, evidence⟩ = .ok _ :=
    reconciliationDraftFor_eq_ok.mpr
      ⟨envelope, snapshot, henv, rfl, rfl, rfl, hcurrent,
        ⟨rfl, rfl, hsnapshot.provider, hsnapshot.target⟩,
        ⟨hsnapshot.completeness, hsnapshot.debt⟩, hnonempty, hnd, hcollectable, rfl⟩
  have hcut : snapshot.snapshotCutRef = postdispatchCutRef j.journalInstanceRef a
      cause.causalJournalSequence observationRef := hsnapshot.cut
  have hmatches := @receiptMatches_of_draft j₂ envelope (observationReceiptFor permit snapshot)
    evidence hcont₂ henv rfl rfl rfl
    (by
      show trimIsEmpty snapshot.snapshotCutRef = false
      rw [hcut]
      exact trimIsEmpty_postdispatchCutRef _ _ _ _)
    (by
      intro heq
      replace heq : snapshot.snapshotCutRef = _ := heq
      apply hfresh
      rw [← heq, hcut]
      exact (postdispatchCutRef_suffix _ _ _ _).isInfix)
    hsnapshot.receiptId hcause hprior hnonempty hnd hcollectable
  have hverdict := hpass.verdict hnd (observationReceiptFor permit snapshot)
  generalize hd : reconciliationDraft (observationReceiptFor permit snapshot)
    envelope.metadata.expectedPostconditionContractRefs (evidenceFor evidence) = draft at *
  have haction : draft.actionId = a := by
    rw [← hd]
    rfl
  have hadm : Admits .append j₂.entries a
      (.postconditionReceiptRecorded (draft.complete j₂.nextSequence)) := .receipt hs hobs hmatches
  obtain ⟨j₃, happend, hrec⟩ := append_ok hadm (henc _) hio
  let entry := j₂.nextEntry a (.postconditionReceiptRecorded (draft.complete j₂.nextSequence)) io
  refine ⟨_, j₂, ⟨.verifiedExpected, true, entry, draft.complete j₂.nextSequence⟩, j₃, hcomplete,
    ?_, rfl, ?_⟩
  · unfold reconcileConsequentialPostconditions
    rw [hdraft]
    simp only [recordActionPostconditionReceipt, haction, happend, hverdict]
    rfl
  · have hreceipt : transitionState (.postconditionReceiptRecorded
        (draft.complete j₂.nextSequence)) = .verifiedUncommitted := if_pos hverdict
    rw [hrec.entries, recoveryStateFor_snoc, if_pos (show entry.actionId = a from rfl)]
    exact congrArg some hreceipt

/-! ### What stays outside -/

section
variable (contracts : List String)

/-- The sample action prepared, its permit abandoned, with the given contracts. -/
def abandonedCalls : List JournalCall :=
  .recordIntentAdmitted
      { sampleEnvelope with
        metadata := { sampleEnvelope.metadata with
          expectedPostconditionContractRefs := contracts } } soundIo ::
    sampleCalls.tail ++
    [.abandonDispatchExecution
      { journalInstanceRef := 1, actionId := 7, preparationJournalSequence := 3
        preparationReceiptRef := "prepared:1", permitRef := 22 }]

def abandonedRun : List CallLabel × ConsequentialJournal :=
  runCalls numeralCodec (freshJournal 1) (abandonedCalls contracts)

/-- A snapshot for an observation of the sample action. -/
def sampleSnapshot (cut : String) : ReconciliationSnapshotReceipt :=
  { receiptId := "reconciliation:1", providerIncarnationRef := ⟨"provider:1"⟩
    targetIncarnationRef := ⟨"target:1"⟩, snapshotCutRef := cut, surfaceScope := "surface"
    completeness := .established, cacheProfileRevision := "cache:1"
    permissionVisibilityRevision := "permission:1", captureSequence := 1
    observedDigest := "digest:1", incompletenessDebt := [] }

/-- The cut of observation 30 of the sample action. -/
def sampleCut : String := postdispatchCutRef 1 7 3 30

def sampleObservation : ConsequentialPostconditionObservationReceipt :=
  { actionId := 7, sessionId := 3, providerIncarnationRef := ⟨"provider:1"⟩
    targetIncarnationRef := ⟨"target:1"⟩, snapshotCutRef := sampleCut
    reconciliationReceiptRef := "reconciliation:1"
    cause := .dispatchPreparedUncertain 3 "prepared:1" }

/-- The sample action observed with a failed contract, and its compensation
failed. -/
def compensationFailedRun : List CallLabel × ConsequentialJournal :=
  runCalls numeralCodec (freshJournal 1) (abandonedCalls ["contract:saved"] ++
    [.recordActionPostconditionReceipt
        (reconciliationDraft sampleObservation ["contract:saved"]
          fun _ => some ⟨"contract:saved", .verifiedFail, "evidence:1"⟩) soundIo,
      .recordCompensation 7 "compensation:1" .compensationFailed soundIo])

theorem noLiveGrants_abandonedRun (b : Uuid) :
    NoLiveGrants (abandonedRun contracts).2 b := by
  refine ⟨?_, ?_, rfl⟩
  · show update (update (fun _ => none) (7 : Uuid) (some _)) 7 none b = none
    simp [update_apply]
  · show update (update (fun _ => none) (7 : Uuid) (some _)) 7 none b = none
    simp [update_apply]

theorem NoLiveGrants.of_sameGrants {j j' : ConsequentialJournal} {b : Uuid}
    (h : NoLiveGrants j b) (hsame : SameGrants j j') : NoLiveGrants j' b :=
  { prepared := by rw [hsame.prepared]; exact h.prepared
    execution := by rw [hsame.execution]; exact h.execution
    observation := by rw [hsame.observation]; exact h.observation }

theorem runCalls_append (codec : EntryCodec) (j : ConsequentialJournal)
    (calls later : List JournalCall) :
    (runCalls codec j (calls ++ later)).2 = (runCalls codec (runCalls codec j calls).2 later).2 := by
  induction calls generalizing j with
  | nil => rfl
  | cons call calls ih =>
    simp only [cons_append, runCalls]
    exact ih _

theorem sameGrants_recordActionPostconditionReceipt (codec : EntryCodec)
    (j : ConsequentialJournal) (draft : ActionPostconditionReceiptDraft) (io : AppendIo) :
    SameGrants j (j.recordActionPostconditionReceipt codec draft io).2 := by
  rw [recordActionPostconditionReceipt_snd]
  exact (append_cases ..).1

/-- A receipt and a compensation mint nothing. -/
theorem NoLiveGrants.settled {j : ConsequentialJournal} {b : Uuid} (h : NoLiveGrants j b)
    (codec : EntryCodec) (draft : ActionPostconditionReceiptDraft) (a : Uuid)
    (compensationRef : String) (outcome : WorldOutcome) (io : AppendIo) :
    NoLiveGrants (runCalls codec j [.recordActionPostconditionReceipt draft io,
      .recordCompensation a compensationRef outcome io]).2 b := by
  have hreceipt := h.of_sameGrants (sameGrants_recordActionPostconditionReceipt codec j draft io)
  exact hreceipt.of_sameGrants (append_cases codec _ a
    (.compensationRecorded compensationRef outcome) io).1

theorem noLiveGrants_compensationFailedRun (b : Uuid) :
    NoLiveGrants compensationFailedRun.2 b := by
  rw [compensationFailedRun, runCalls_append]
  exact (noLiveGrants_abandonedRun ["contract:saved"] b).settled _ _ _ _ _ _

/-- Observation 30 of the sample action. -/
def samplePermit : ConsequentialPostconditionObservationPermit :=
  { journalInstanceRef := 1, observationRef := 30, actionId := 7, sessionId := 3
    providerIncarnationRef := ⟨"provider:1"⟩, targetIncarnationRef := ⟨"target:1"⟩
    snapshotCutRef := sampleCut, cause := .dispatchPreparedUncertain 3 "prepared:1" }

/-- The sample action of the given contracts under observation 30, and the
observation completed. -/
def sampleObserving : ConsequentialJournal :=
  ((abandonedRun contracts).2.beginPostconditionObservation 7 30).2

def sampleObserved : ConsequentialJournal :=
  ((sampleObserving contracts).completePostconditionObservation samplePermit
    (sampleSnapshot sampleCut)).2

/-- The completed observation reconciled with the given evidence. -/
def sampleReconciliation (evidence : List ConsequentialPostconditionEvidence) :
    Except ConsequentialReconciliationError ConsequentialPostconditionReconciliationResult ×
      ConsequentialJournal :=
  reconcileConsequentialPostconditions numeralCodec (fun _ => some (sampleSnapshot sampleCut))
    (sampleObserved contracts) ⟨sampleObservation, evidence⟩ soundIo

theorem sample_begins :
    ((abandonedRun contracts).2.beginPostconditionObservation 7 30).1 = .ok samplePermit := rfl

end

theorem sample_completes :
    ((sampleObserving ["contract:saved"]).completePostconditionObservation samplePermit
      (sampleSnapshot sampleCut)).1 = .ok sampleObservation := by
  decide +kernel

theorem establishedSnapshot_sample : EstablishedSnapshot samplePermit (sampleSnapshot sampleCut) :=
  ⟨rfl, rfl, rfl, by decide, rfl, rfl⟩

theorem passEvidence_sample :
    PassEvidence ["contract:saved"] [⟨"contract:saved", .verifiedPass, "evidence:1"⟩] :=
  ⟨List.Perm.refl _, by decide, by decide⟩

/-- **Some recovery debt cannot be worked off by observation.**  Three reached
journals without live grants whose action requires reconciliation: after a failed
compensation the observation is refused; with no declared contract, and with one
declared twice, the observation begins and completes but its reconciliation with
passing evidence against the established snapshot is rejected. -/
theorem not_every_debt_observable : ((∀ b, NoLiveGrants compensationFailedRun.2 b) ∧
        compensationFailedRun.2.requiresReconciliation 7 = some true ∧
        (compensationFailedRun.2.beginPostconditionObservation 7 30).1 =
          .error (.invalidRecoveryState 7 (some .compensationFailed))) ∧
      ((∀ b, NoLiveGrants (abandonedRun []).2 b) ∧
        (abandonedRun []).2.requiresReconciliation 7 = some true ∧
        ((abandonedRun []).2.beginPostconditionObservation 7 30).1 = .ok samplePermit ∧
        EstablishedSnapshot samplePermit (sampleSnapshot sampleCut) ∧ PassEvidence [] [] ∧
        (sampleReconciliation [] []).1 = .error .missingExpectedPostconditions) ∧
      ((∀ b, NoLiveGrants (abandonedRun ["contract:saved", "contract:saved"]).2 b) ∧
        (abandonedRun ["contract:saved", "contract:saved"]).2.requiresReconciliation 7 = some true ∧
        PassEvidence ["contract:saved", "contract:saved"]
          [⟨"contract:saved", .verifiedPass, "evidence:1"⟩,
            ⟨"contract:saved", .verifiedPass, "evidence:2"⟩] ∧
        (sampleReconciliation ["contract:saved", "contract:saved"]
          [⟨"contract:saved", .verifiedPass, "evidence:1"⟩,
            ⟨"contract:saved", .verifiedPass, "evidence:2"⟩]).1 =
          .error (.duplicateExpectedPostcondition "contract:saved")) := by
  refine ⟨⟨noLiveGrants_compensationFailedRun, by decide +kernel, by decide +kernel⟩,
    ⟨noLiveGrants_abandonedRun _, by decide +kernel, sample_begins _, establishedSnapshot_sample,
      ⟨List.Perm.refl _, by decide, by decide⟩, rfl⟩,
    ⟨noLiveGrants_abandonedRun _, by decide +kernel, ⟨List.Perm.refl _, by decide, by decide⟩,
      rfl⟩⟩

/-- The sample action's debt is worked off. -/
theorem observation_debt_worked_off_sample : ∃ result j₃, sampleReconciliation ["contract:saved"]
        [⟨"contract:saved", .verifiedPass, "evidence:1"⟩] = (.ok result, j₃) ∧
      recoveryStateFor j₃.entries 7 = some .verifiedUncommitted := by
  obtain ⟨permit, j₁, envelope, hbegin, henv, hwork⟩ := observation_debt_worked_off numeralCodec
    .none 1 [] (freshJournal 1) (by rw [openJournal_empty]) _
    (abandonedRun ["contract:saved"]).2 (run_runCalls _ _ _) 7
    (noLiveGrants_abandonedRun _ 7) (by decide +kernel) (by decide +kernel) 30
  obtain ⟨hpermit, hj₁⟩ := Prod.ext_iff.mp hbegin
  obtain rfl : samplePermit = permit := Except.ok.inj ((sample_begins _).symm.trans hpermit)
  obtain rfl : sampleObserving ["contract:saved"] = j₁ := hj₁
  have hsample : admittedEnvelopeFor (abandonedRun ["contract:saved"]).2.entries 7 =
      some sampleEnvelope := by decide +kernel
  obtain rfl : sampleEnvelope = envelope := Option.some.inj (hsample.symm.trans henv)
  obtain ⟨observation, j₂, result, j₃, hcomplete, hreconcile, -, hstate⟩ :=
    hwork (sampleSnapshot sampleCut) [⟨"contract:saved", .verifiedPass, "evidence:1"⟩]
      (fun _ => some (sampleSnapshot sampleCut)) soundIo (by decide) (by decide)
      (by decide +kernel) establishedSnapshot_sample passEvidence_sample rfl rfl
      fun e => ⟨_, rfl⟩
  obtain ⟨hobservation, hj₂⟩ := Prod.ext_iff.mp hcomplete
  obtain rfl : sampleObservation = observation :=
    Except.ok.inj (sample_completes.symm.trans hobservation)
  obtain rfl : sampleObserved ["contract:saved"] = j₂ := hj₂
  exact ⟨result, j₃, hreconcile, hstate⟩

end Localview
