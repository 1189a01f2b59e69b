import Localview.JournalReplay

/-! # The life of one action

The entries of one action, read by kind, are a prefix of a fixed word: the
admission, authorizations, PREPARED, at most one linearization, postcondition
receipts, and one closing entry.  `Shape` gives the exact word for each recovery
state; one entry moves one shape to the next, so every validated history has the
shape of its state.

The validator looks at the history only through scans, and other actions'
entries stand in between: the statements below speak of positions in the whole
log.
-/
namespace Localview
open RecordLog StateRun List

/-! ## Words -/

/-- The kind of a transition, without its data. -/
inductive TransitionKind
  | intentAdmitted
  | authorizationRecorded
  | dispatchPrepared
  | dispatchLinearized
  | postconditionReceiptRecorded
  | reconciliationOutcome
  | compensationRecorded
  | committed

def ConsequentialJournalTransition.kind : ConsequentialJournalTransition → TransitionKind
  | .intentAdmitted _ => .intentAdmitted
  | .authorizationRecorded _ _ => .authorizationRecorded
  | .dispatchPrepared _ => .dispatchPrepared
  | .dispatchLinearized _ => .dispatchLinearized
  | .postconditionReceiptRecorded _ => .postconditionReceiptRecorded
  | .reconciliationOutcome _ _ _ _ => .reconciliationOutcome
  | .compensationRecorded _ _ => .compensationRecorded
  | .committed => .committed

def kindsFor (entries : List ConsequentialJournalEntry) (a : Uuid) : List TransitionKind :=
  (entries.filter (·.actionId = a)).map (·.transition.kind)

open TransitionKind

/-- An admitted, authorized and prepared action, linearized or not, with
postcondition receipts. -/
def lifecycleStem (authorizations : Nat) (linearized : Bool) (receipts : Nat) :
    List TransitionKind :=
  intentAdmitted ::
      List.replicate authorizations authorizationRecorded ++
    dispatchPrepared ::
      (if linearized then [dispatchLinearized] else []) ++
    List.replicate receipts postconditionReceiptRecorded

/-- A whole life: the stem and its closing entry. -/
def lifecycleWord (authorizations : Nat) (linearized : Bool) (receipts : Nat)
    (last : TransitionKind) : List TransitionKind :=
  lifecycleStem authorizations linearized receipts ++ [last]

theorem lifecycleStem_linearized (n : Nat) :
    lifecycleStem n false 0 ++ [.dispatchLinearized] = lifecycleStem n true 0 := by
  simp [lifecycleStem]

theorem lifecycleStem_receipt (n : Nat) (linearized : Bool) (m : Nat) :
    lifecycleStem n linearized m ++ [.postconditionReceiptRecorded] =
      lifecycleStem n linearized (m + 1) := by
  simp [lifecycleStem, replicate_succ']

theorem kindsFor_snoc (entries : List ConsequentialJournalEntry) (e : ConsequentialJournalEntry)
    (a : Uuid) :
    kindsFor (entries ++ [e]) a =
      if e.actionId = a then kindsFor entries a ++ [e.transition.kind]
      else kindsFor entries a := by
  unfold kindsFor
  rw [filter_append, map_append]
  by_cases h : e.actionId = a <;> simp [h]

/-- **The word of each recovery state.** -/
inductive Shape : Option ConsequentialRecoveryState → List TransitionKind → Prop
  | unknown : Shape none []
  | admitted : Shape (some .admitted) [.intentAdmitted]
  | authorized (n : Nat) : Shape (some .authorizedNotDispatched)
      (.intentAdmitted :: List.replicate (n + 1) .authorizationRecorded)
  | prepared (n : Nat) : Shape (some .dispatchPrepared) (lifecycleStem n false 0)
  | linearized (n : Nat) {state} : state = .possiblyDispatched ∨ state = .knownNotDispatched →
      Shape (some state) (lifecycleStem n true 0)
  | observed (n : Nat) (linearized : Bool) (m : Nat) {state} :
      state = .verifiedUncommitted ∨ state = .outcomeObservedUnverified →
      Shape (some state) (lifecycleStem n linearized (m + 1))
  | compensated (n : Nat) (linearized : Bool) (m : Nat) {state} :
      state = .compensated ∨ state = .compensationFailed →
      Shape (some state) (lifecycleWord n linearized m .compensationRecorded)
  | committed (n : Nat) (linearized : Bool) (m : Nat) :
      Shape (some .committed) (lifecycleWord n linearized m .committed)

namespace Shape
variable {state : ConsequentialRecoveryState} {word : List TransitionKind}

theorem of_authorizable (h : Shape (some state) word)
    (hs : state = .admitted ∨ state = .authorizedNotDispatched) :
    ∃ n, word = .intentAdmitted :: List.replicate n .authorizationRecorded := by
  cases h with
  | admitted => exact ⟨0, rfl⟩
  | authorized n => exact ⟨n + 1, rfl⟩
  | linearized _ h => rcases h with rfl | rfl <;> rcases hs with hs | hs <;> cases hs
  | observed _ _ _ h => rcases h with rfl | rfl <;> rcases hs with hs | hs <;> cases hs
  | compensated _ _ _ h => rcases h with rfl | rfl <;> rcases hs with hs | hs <;> cases hs
  | _ => rcases hs with hs | hs <;> cases hs

theorem of_observable (h : Shape (some state) word) (hs : state.observable = true) :
    ∃ n linearized m, word = lifecycleStem n linearized m := by
  cases h with
  | prepared n => exact ⟨n, false, 0, rfl⟩
  | linearized n _ => exact ⟨n, true, 0, rfl⟩
  | observed n linearized m _ => exact ⟨n, linearized, m + 1, rfl⟩
  | compensated _ _ _ h => rcases h with rfl | rfl <;> cases hs
  | _ => cases hs

theorem of_observed (h : Shape (some state) word)
    (hs : state = .verifiedUncommitted ∨ state = .outcomeObservedUnverified) :
    ∃ n linearized m, word = lifecycleStem n linearized m := by
  cases h with
  | observed n linearized m _ => exact ⟨n, linearized, m + 1, rfl⟩
  | linearized _ h => rcases h with rfl | rfl <;> rcases hs with hs | hs <;> cases hs
  | compensated _ _ _ h => rcases h with rfl | rfl <;> rcases hs with hs | hs <;> cases hs
  | _ => rcases hs with hs | hs <;> cases hs

/-- What one entry of the action does to the word. -/
theorem snoc {entries : List ConsequentialJournalEntry} {a : Uuid}
    {tr : ConsequentialJournalTransition} (h : Shape (recoveryStateFor entries a) word)
    (hadm : Admits .append entries a tr) : Shape (some (transitionState tr)) (word ++ [tr.kind]) := by
  cases hadm with
  | intent hs _ =>
    rw [hs] at h
    cases h
    exact .admitted
  | authorization hs =>
    obtain ⟨n, rfl⟩ : ∃ n, word = .intentAdmitted :: List.replicate n .authorizationRecorded := by
      rcases hs with hs | hs
      · rw [hs] at h; exact h.of_authorizable (.inl rfl)
      · rw [hs] at h; exact h.of_authorizable (.inr rfl)
    have hword : intentAdmitted :: List.replicate n .authorizationRecorded ++
        [.authorizationRecorded] =
        .intentAdmitted :: List.replicate (n + 1) .authorizationRecorded := by
      simp [replicate_succ']
    show Shape (some .authorizedNotDispatched) (_ ++ [.authorizationRecorded])
    rw [hword]
    exact .authorized n
  | prepared hs _ =>
    rw [hs] at h
    obtain ⟨n, rfl⟩ := h.of_authorizable (.inr rfl)
    have hword : intentAdmitted :: List.replicate n .authorizationRecorded ++
        [.dispatchPrepared] = lifecycleStem n false 0 := by
      simp [lifecycleStem]
    show Shape (some .dispatchPrepared) (_ ++ [.dispatchPrepared])
    rw [hword]
    exact .prepared n
  | @linearized receipt hs =>
    rw [hs] at h
    obtain ⟨n, rfl⟩ : ∃ n, word = lifecycleStem n false 0 := by
      generalize hstate : some ConsequentialRecoveryState.dispatchPrepared = state at h
      cases h with
      | prepared n => exact ⟨n, rfl⟩
      | linearized _ h => rcases h with rfl | rfl <;> cases hstate
      | observed _ _ _ h => rcases h with rfl | rfl <;> cases hstate
      | compensated _ _ _ h => rcases h with rfl | rfl <;> cases hstate
      | _ => cases hstate
    show Shape _ (_ ++ [.dispatchLinearized])
    rw [lifecycleStem_linearized]
    exact .linearized n (transitionState_dispatchLinearized receipt)
  | @receipt receipt _ _ hs hobs _ =>
    rw [hs] at h
    obtain ⟨n, linearized, m, rfl⟩ := h.of_observable hobs
    show Shape _ (_ ++ [.postconditionReceiptRecorded])
    rw [lifecycleStem_receipt]
    exact .observed n linearized m (transitionState_receipt receipt)
  | @compensation ref outcome hs =>
    rw [hs] at h
    obtain ⟨n, linearized, m, rfl⟩ := h.of_observed (.inr rfl)
    exact .compensated n linearized m (transitionState_compensation ref outcome)
  | committed hs =>
    rw [hs] at h
    obtain ⟨n, linearized, m, rfl⟩ := h.of_observed (.inl rfl)
    exact .committed n linearized m
  | legacyLinearized hmode _ => cases hmode
  | legacyOutcome hmode _ _ => cases hmode

/-- Every shape is a prefix of a whole life. -/
theorem prefix_word {state : Option ConsequentialRecoveryState} (h : Shape state word) :
    ∃ n linearized m last, (last = .compensationRecorded ∨ last = .committed) ∧
      word <+: lifecycleWord n linearized m last := by
  have hstem : ∀ n linearized m, ∃ n' linearized' m' last,
      (last = compensationRecorded ∨ last = .committed) ∧
        lifecycleStem n linearized m <+: lifecycleWord n' linearized' m' last :=
    fun n linearized m => ⟨n, linearized, m, .committed, .inr rfl, prefix_append _ _⟩
  have hauthorized : ∀ n, intentAdmitted ::
      List.replicate n .authorizationRecorded <+: lifecycleStem n false 0 := by
    intro n
    exact ⟨[.dispatchPrepared], by simp [lifecycleStem]⟩
  cases h with
  | unknown => exact ⟨0, false, 0, .committed, .inr rfl, nil_prefix⟩
  | admitted =>
    exact ⟨0, false, 0, .committed, .inr rfl, (hauthorized 0).trans (prefix_append _ _)⟩
  | authorized n =>
    exact ⟨n + 1, false, 0, .committed, .inr rfl,
      (hauthorized (n + 1)).trans (prefix_append _ _)⟩
  | prepared n => exact hstem n false 0
  | linearized n _ => exact hstem n true 0
  | observed n linearized m _ => exact hstem n linearized (m + 1)
  | compensated n linearized m _ =>
    exact ⟨n, linearized, m, .compensationRecorded, .inl rfl, prefix_refl _⟩
  | committed n linearized m => exact ⟨n, linearized, m, .committed, .inr rfl, prefix_refl _⟩

end Shape

variable {entries : List ConsequentialJournalEntry}

/-- **Every validated history has, for each action, the shape of its state.** -/
theorem shape_of_history (h : History .append entries) (a : Uuid) :
    Shape (recoveryStateFor entries a) (kindsFor entries a) := by
  induction h with
  | nil => exact .unknown
  | @snoc entries e _ _ _ hadm ih =>
    rw [recoveryStateFor_snoc, kindsFor_snoc]
    by_cases ha : e.actionId = a
    · subst ha
      rw [if_pos rfl, if_pos rfl]
      exact ih.snoc hadm
    · rw [if_neg ha, if_neg ha]
      exact ih

/-! ## Closing entries -/

/-- The dispatch results that leave no possible dispatch. -/
def DispatchResult.provesNotDispatched : DispatchResult → Bool
  | .dispatchedFull | .dispatchedPartial | .dispatchAmbiguous => false
  | _ => true

def ConsequentialJournalTransition.closes : ConsequentialJournalTransition → Bool
  | .dispatchLinearized receipt => receipt.dispatchResult.provesNotDispatched
  | .compensationRecorded _ _ => true
  | .committed => true
  | _ => false

/-- The recovery states after a closing entry. -/
def ConsequentialRecoveryState.closed : ConsequentialRecoveryState → Bool
  | .knownNotDispatched | .compensated | .compensationFailed | .committed => true
  | _ => false

variable {tr : ConsequentialJournalTransition}

theorem closed_of_closes (h : tr.closes = true) :
    (transitionState tr).closed = true := by
  cases tr with
  | dispatchLinearized receipt =>
    unfold transitionState
    cases hr : receipt.dispatchResult <;>
      simp [ConsequentialJournalTransition.closes, DispatchResult.provesNotDispatched, hr] at h ⊢ <;>
      rfl
  | compensationRecorded ref outcome =>
    rcases transitionState_compensation ref outcome with hs | hs <;> rw [hs] <;> rfl
  | committed => rfl
  | _ => cases h

variable {state : ConsequentialRecoveryState}

theorem closed_of_observable (h : state.observable = true) : state.closed = false := by
  revert h
  cases state <;> decide

variable {a : Uuid}

/-- A closed action admits nothing. -/
theorem not_admits_of_closed (hs : recoveryStateFor entries a = some state)
    (hclosed : state.closed = true) :
    ¬ Admits .append entries a tr := by
  intro hadm
  cases hadm with
  | intent h _ => rw [hs] at h; cases h
  | authorization h => rcases h with h | h <;> · rw [hs] at h; cases h; cases hclosed
  | prepared h _ => rw [hs] at h; cases h; cases hclosed
  | linearized h => rw [hs] at h; cases h; cases hclosed
  | receipt h hobs _ =>
    rw [hs] at h
    cases h
    rw [closed_of_observable hobs] at hclosed
    cases hclosed
  | compensation h => rw [hs] at h; cases h; cases hclosed
  | committed h => rw [hs] at h; cases h; cases hclosed
  | legacyLinearized hmode _ => cases hmode
  | legacyOutcome hmode _ _ => cases hmode

/-- Nothing of the action follows once it is closed. -/
theorem no_entry_after_closed {entries later : List ConsequentialJournalEntry}
    (h : History .append (entries ++ later)) (hs : recoveryStateFor entries a = some state)
    (hclosed : state.closed = true) :
    (∀ x ∈ later, x.actionId ≠ a) ∧ recoveryStateFor (entries ++ later) a = some state := by
  induction later using List.reverseRec with
  | nil => exact ⟨by simp, by simpa using hs⟩
  | append_singleton later x ih =>
    rw [← append_assoc] at h
    obtain ⟨hprev, -, -, hadm⟩ := History.snoc_iff.mp h
    obtain ⟨hnone, hstate⟩ := ih hprev
    have hx : x.actionId ≠ a := by
      rintro rfl
      exact not_admits_of_closed hstate hclosed hadm
    refine ⟨?_, ?_⟩
    · intro y hy
      rcases mem_append.mp hy with hy | hy
      · exact hnone y hy
      · rw [mem_singleton.mp hy]
        exact hx
    · rw [← append_assoc, recoveryStateFor_snoc, if_neg hx]
      exact hstate

/-! ## What a scan found -/

theorem last_entry_of_state (h : recoveryStateFor entries a = some state) :
    ∃ (before : List ConsequentialJournalEntry) (x : ConsequentialJournalEntry)
      (later : List ConsequentialJournalEntry), entries = before ++ x :: later ∧ x.actionId = a ∧
      transitionState x.transition = state ∧ ∀ y ∈ later, y.actionId ≠ a := by
  induction entries using List.reverseRec with
  | nil => cases h
  | append_singleton entries x ih =>
    rw [recoveryStateFor_snoc] at h
    rcases ite_eq_iff.mp h with ⟨hx, h⟩ | ⟨hx, h⟩
    · exact ⟨entries, x, [], rfl, hx, Option.some.inj h, by simp⟩
    · obtain ⟨before, y, later, rfl, hy, hstate, hlater⟩ := ih h
      refine ⟨before, y, later ++ [x], by simp, hy, hstate, ?_⟩
      intro z hz
      rcases mem_append.mp hz with hz | hz
      · exact hlater z hz
      · rw [mem_singleton.mp hz]
        exact hx

/-- The latest authorization, as a position in the log. -/
theorem latestAuthorization_eq_some {sequence : Nat} {revision : String} {revalidated : Bool}
    (h : latestAuthorization entries a = some (sequence, revision, revalidated)) :
    ∃ (before : List ConsequentialJournalEntry) (x : ConsequentialJournalEntry)
      (later : List ConsequentialJournalEntry), entries = before ++ x :: later ∧ x.actionId = a ∧
      x.transition = .authorizationRecorded revision revalidated ∧ x.journalSequence = sequence ∧
      ∀ y ∈ later, y.actionId = a → y.transition.kind ≠ .authorizationRecorded := by
  obtain ⟨l₁, x, l₂, hsplit, hx, hnone⟩ := findSome?_eq_some_iff.mp h
  have hentries : entries = l₂.reverse ++ x :: l₁.reverse := by
    rw [← reverse_reverse entries, hsplit]
    simp
  refine ⟨l₂.reverse, x, l₁.reverse, hentries, ?_⟩
  by_cases hxa : x.actionId = a
  · rw [if_neg (not_not.mpr hxa)] at hx
    cases htr : x.transition with
    | authorizationRecorded revision' revalidated' =>
      simp only [htr, Option.some.injEq, Prod.mk.injEq] at hx
      obtain ⟨hseq, rfl, rfl⟩ := hx
      refine ⟨hxa, rfl, hseq, ?_⟩
      intro y hy hya hkind
      have hynone := hnone y (mem_reverse.mp hy)
      rw [if_neg (not_not.mpr hya)] at hynone
      cases hytr : y.transition <;> simp [hytr, ConsequentialJournalTransition.kind] at hkind hynone
    | _ => simp [htr] at hx
  · rw [if_pos hxa] at hx
    cases hx

/-! ## The lifecycle -/

/-- **The lifecycle of one action in a log**: the language of its entries, the
evidence PREPARED and Committed rest on, and the entries nothing follows. -/
structure Lifecycle (entries : List ConsequentialJournalEntry) (a : Uuid) : Prop where
  word : ∃ authorizations linearized receipts last,
    (last = .compensationRecorded ∨ last = .committed) ∧
    kindsFor entries a <+: lifecycleWord authorizations linearized receipts last
  /-- PREPARED names the latest authorization before it, which is revalidated
  and carries the envelope's revision. -/
  prepared : ∀ (before : List ConsequentialJournalEntry) (e : ConsequentialJournalEntry)
    (later : List ConsequentialJournalEntry) receipt, entries = before ++ e :: later →
    e.actionId = a → e.transition = .dispatchPrepared receipt →
    ∃ envelope, admittedEnvelopeFor before a = some envelope ∧
      ∃ (before₁ : List ConsequentialJournalEntry) (x : ConsequentialJournalEntry)
          (before₂ : List ConsequentialJournalEntry),
        before = before₁ ++ x :: before₂ ∧ x.actionId = a ∧
        x.transition = .authorizationRecorded envelope.metadata.authorizationRevision true ∧
        x.journalSequence = receipt.authorizationJournalSequence ∧
        ∀ y ∈ before₂, y.actionId = a → y.transition.kind ≠ .authorizationRecorded
  /-- Nothing of the action follows a closing entry. -/
  closed : ∀ (before : List ConsequentialJournalEntry) (e : ConsequentialJournalEntry)
    (later : List ConsequentialJournalEntry), entries = before ++ e :: later → e.actionId = a →
    e.transition.closes = true → ∀ x ∈ later, x.actionId ≠ a
  /-- Committed directly follows, within the action, a receipt that verified
  exactly the envelope's contracts. -/
  committed : ∀ (before : List ConsequentialJournalEntry) (e : ConsequentialJournalEntry)
    (later : List ConsequentialJournalEntry), entries = before ++ e :: later → e.actionId = a →
    e.transition = .committed →
    ∃ envelope, admittedEnvelopeFor before a = some envelope ∧
      ∃ (before₁ : List ConsequentialJournalEntry) (x : ConsequentialJournalEntry)
          (before₂ : List ConsequentialJournalEntry) (receipt : ActionPostconditionReceipt),
        before = before₁ ++ x :: before₂ ∧ x.actionId = a ∧ (∀ y ∈ before₂, y.actionId ≠ a) ∧
        x.transition = .postconditionReceiptRecorded receipt ∧
        receipt.verdict = .verifiedExpected ∧
        receipt.verifiedContractRefs.Perm envelope.metadata.expectedPostconditionContractRefs

theorem ReceiptMatches.verified_perm {receipt : ActionPostconditionReceipt}
    {envelope : CanonicalActionEnvelope} (h : ReceiptMatches entries a receipt envelope)
    (hverdict : receipt.verdict = .verifiedExpected) :
    receipt.verifiedContractRefs.Perm envelope.metadata.expectedPostconditionContractRefs := by
  have hv := h.verdict
  rw [hverdict, partitionVerdict] at hv
  split at hv
  · cases hv
  · rename_i hfailed
    split at hv
    · rename_i hunknown
      have hpart := h.partition
      have hnodup := h.partitionNodup
      rw [not_not.mp hfailed, hunknown, append_nil, append_nil] at hpart hnodup
      rw [← h.expected]
      exact perm_of_nodup_nodup_toFinset_eq hnodup h.contractsNodup hpart
    · cases hv

theorem receipt_of_verifiedUncommitted (hadm : Admits .append entries a tr)
    (hs : transitionState tr = .verifiedUncommitted) :
    ∃ receipt envelope, tr = .postconditionReceiptRecorded receipt ∧
      receipt.verdict = .verifiedExpected ∧ ReceiptMatches entries a receipt envelope := by
  cases hadm with
  | @receipt receipt envelope _ _ _ hm =>
    refine ⟨receipt, envelope, rfl, ?_, hm⟩
    by_contra hverdict
    rw [transitionState, if_neg hverdict] at hs
    cases hs
  | @linearized receipt _ =>
    rcases transitionState_dispatchLinearized receipt with h | h <;> rw [h] at hs <;> cases hs
  | @compensation ref outcome _ =>
    rcases transitionState_compensation ref outcome with h | h <;> rw [h] at hs <;> cases hs
  | legacyLinearized hmode _ => cases hmode
  | legacyOutcome hmode _ _ => cases hmode
  | _ => cases hs

/-- **Every history has the lifecycle, for every action.** -/
theorem lifecycle_of_history (h : History .append entries) (a : Uuid) : Lifecycle entries a := by
  refine ⟨(shape_of_history h a).prefix_word, ?_, ?_, ?_⟩
  · rintro before e later receipt rfl rfl htr
    obtain ⟨-, -, -, hadm⟩ := h.of_split
    rw [htr] at hadm
    cases hadm with
    | prepared _ hm =>
      obtain ⟨before₁, x, before₂, hbefore, hx, hxtr, hseq, hlast⟩ :=
        latestAuthorization_eq_some hm.authorization
      exact ⟨_, hm.admitted, before₁, x, before₂, hbefore, hx, hxtr, hseq, hlast⟩
  · rintro before e later rfl rfl hcloses
    rw [append_cons] at h
    have hstate : recoveryStateFor (before ++ [e]) e.actionId =
        some (transitionState e.transition) := by
      rw [recoveryStateFor_snoc, if_pos rfl]
    exact (no_entry_after_closed h hstate (closed_of_closes hcloses)).1
  · rintro before e later rfl rfl htr
    obtain ⟨hbefore, -, -, hadm⟩ := h.of_split
    rw [htr] at hadm
    cases hadm with
    | committed hs =>
      obtain ⟨before₁, x, before₂, rfl, hx, hxstate, hlast⟩ := last_entry_of_state hs
      obtain ⟨-, -, -, hxadm⟩ := hbefore.of_split
      obtain ⟨receipt, envelope, hxtr, hverdict, hm⟩ :=
        receipt_of_verifiedUncommitted hxadm hxstate
      have hadmitted := hm.admitted
      rw [hx] at hadmitted
      exact ⟨envelope, admittedEnvelopeFor_append_of_some hadmitted _, before₁, x, before₂, receipt,
        rfl, hx, hlast, hxtr, hverdict, hm.verified_perm hverdict⟩

/-- **Every reached journal has the lifecycle, for every action**, over all runs
of calls without I/O failure and crashes in between. -/
theorem lifecycle_of_run (codec : EntryCodec) (ref : Uuid) (tr : List JournalLabel)
    (j : ConsequentialJournal) (h : Run (SystemStep codec) (freshJournal ref) tr j) (a : Uuid) :
    Lifecycle j.entries a :=
  lifecycle_of_history (written_of_run h).history a

theorem lifecycle_of_sampleRun : Lifecycle sampleRun.2.entries 7 :=
  lifecycle_of_run numeralCodec 1 _ sampleRun.2 run_sampleRun 7

/-- The sample action has been prepared. -/
example : kindsFor sampleRun.2.entries 7 =
    [.intentAdmitted, .authorizationRecorded, .dispatchPrepared] := rfl

end Localview
