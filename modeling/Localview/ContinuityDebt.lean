import Localview.ProviderContinuity
import Localview.StateRun

/-! # Continuity debt is never laundered

A run of a session's observation calls is written down as notes: what the
provider's stream showed (a gap, a reset, a restarted lineage, an accepted
callback whose order says nothing) and which reconciliation was recorded of it.
The notes are read off the sequence numbers and the bindings, never off the
reconciliation that is to be judged.

While nothing releases the observation, an adverse continuity stays adverse
(`adverse_call`), and a reconciliation that is current is the last note of the
run (`Reconciled`): whatever the stream shows after it takes it away.
-/
namespace Localview
open StateRun List

/-- The states that record a debt. -/
def EventContinuityState.adverse : EventContinuityState → Bool
  | .gapDetected | .sequenceReset | .providerReincarnated | .reconnectedUnreconciled
  | .reconciliationRequired => true
  | .continuous | .orderingOpaque | .broken => false

/-- What a run shows of the provider's stream, and what was recorded of it. -/
inductive ContinuityNote
  | gap
  | sequenceReset
  | lineageRestart
  | opaqueAccepted
  | reconciled (receipt : ReconciliationSnapshotReceipt)

/-- What an event shows of the stream before it, `accepted` of it having reached
the buffer. -/
def notesOfEvent (state : ProviderContinuityState) (event : ObserverEvent) (accepted : Nat) :
    List ContinuityNote :=
  (if state.lastSeq.any (fun previous => event.seq < previous) = true then [.sequenceReset] else [])
    ++ (if state.lastSeq.any (fun previous => previous + 1 < event.seq) = true then [.gap] else [])
    ++ (if state.eventContinuity = .orderingOpaque ∧ 0 < accepted then [.opaqueAccepted] else [])

/-- The notes of a batch, along the loop of `ingest_provider`. -/
def notesOfEvents (eventCapacity : Nat) (webBefore : Nat → List ObserverBatch) :
    Nat → List ObserverEvent → ProviderContinuityState → EventBuffer → List ContinuityNote
  | _, [], _, _ => []
  | i, event :: events, state, buffer =>
      let (report, state', buffer') := ingestProviderEvent eventCapacity state
        (ingestWeb eventCapacity buffer (webBefore i)) event
      notesOfEvent state event report.accepted ++
        notesOfEvents eventCapacity webBefore (i + 1) events state' buffer'

def SessionObservation.notesOfCall (eventCapacity : Nat) (s : SessionObservation) :
    ObservationCall → List ContinuityNote
  | .ingestProvider batch webBefore =>
      let state := s.continuity.getD (.ofBatch batch)
      match state.restartCause batch with
      | none =>
          if batch.generation < state.generation then []
          else notesOfEvents eventCapacity webBefore 0 batch.events state s.buffer
      | some cause => .lineageRestart ::
          notesOfEvents eventCapacity webBefore 0 batch.events (state.restartLineage batch cause)
            s.buffer
  | .recordReconciliation receipt =>
      if (Localview.recordReconciliation s receipt).1 then [.reconciled receipt] else []
  | .bindProviderObservation _ | .ingestCollect _ | .releaseProviderObservation => []

/-- A call, and what it notes. -/
structure ObservationLabel where
  call : ObservationCall
  notes : List ContinuityNote

/-- One call of the run. -/
def ObservationStep (eventCapacity : Nat) (s : SessionObservation) (l : ObservationLabel)
    (t : SessionObservation) : Prop :=
  l.notes = s.notesOfCall eventCapacity l.call ∧ t = s.call eventCapacity l.call

def notesOfRun (tr : List ObservationLabel) : List ContinuityNote := tr.flatMap (·.notes)

/-! ## One event -/

section
variable {eventCapacity : Nat} {state : ProviderContinuityState}

theorem adverse_observeSequence (h : state.eventContinuity.adverse = true) (sequence : Nat) :
    (state.observeSequence sequence).eventContinuity.adverse = true := by
  unfold ProviderContinuityState.observeSequence
  split
  · exact h
  · split_ifs
    · exact h
    · rfl
    · rfl
    · exact h

/-- A reconciliation that outlives an event's sequence number was there before
it, and the number neither resets the stream nor leaves a gap. -/
theorem reconciliation_observeSequence {sequence : Nat} {receipt : ReconciliationSnapshotReceipt}
    (h : (state.observeSequence sequence).reconciliation = some receipt) :
    state.reconciliation = some receipt ∧
      (state.observeSequence sequence).eventContinuity = state.eventContinuity ∧
      state.lastSeq.any (fun previous => sequence < previous) = false ∧
      state.lastSeq.any (fun previous => previous + 1 < sequence) = false := by
  revert h
  unfold ProviderContinuityState.observeSequence
  split
  · next hlast =>
    intro h
    rw [hlast]
    exact ⟨h, rfl, rfl, rfl⟩
  · next previous hlast =>
    rw [hlast]
    simp only [Option.any_some, decide_eq_false_iff_not]
    split_ifs with heq hlt hgap
    · intro h
      exact ⟨h, rfl, by omega, by omega⟩
    · intro h
      cases h
    · intro h
      cases h
    · intro h
      unfold saturatingSucc at hgap
      exact ⟨h, rfl, hlt, by omega⟩

theorem adverse_ingestProviderEvent (h : state.eventContinuity.adverse = true)
    (buffer : EventBuffer) (event : ObserverEvent) :
    (ingestProviderEvent eventCapacity state buffer event).2.1.eventContinuity.adverse = true := by
  unfold ingestProviderEvent
  dsimp only
  split
  · exact adverse_observeSequence h event.seq
  · exact adverse_observeSequence h event.seq

/-- A reconciliation that outlives an event was there before it, and the event
leaves no note. -/
theorem reconciliation_ingestProviderEvent {buffer : EventBuffer} {event : ObserverEvent}
    {receipt : ReconciliationSnapshotReceipt}
    (h : (ingestProviderEvent eventCapacity state buffer event).2.1.reconciliation = some receipt) :
    state.reconciliation = some receipt ∧
      notesOfEvent state event (ingestProviderEvent eventCapacity state buffer event).1.accepted =
        [] := by
  revert h
  unfold ingestProviderEvent
  dsimp only
  split
  · intro h
    cases h
  · next hsilent =>
    intro h
    obtain ⟨hbefore, hcont, hreset, hgap⟩ := reconciliation_observeSequence h
    refine ⟨hbefore, ?_⟩
    rw [hcont] at hsilent
    unfold notesOfEvent
    rw [if_neg (by rw [hreset]; decide), if_neg (by rw [hgap]; decide),
      if_neg (fun ⟨hop, hacc⟩ => hsilent ⟨hacc, hop⟩)]
    rfl

end

/-! ## A batch -/

section
variable {eventCapacity : Nat} {webBefore : Nat → List ObserverBatch} {events : List ObserverEvent}

theorem adverse_ingestProviderEvents {i : Nat} {state : ProviderContinuityState}
    (h : state.eventContinuity.adverse = true) (buffer : EventBuffer) (accepted rejected : Nat) :
    (ingestProviderEvents eventCapacity webBefore i events state buffer accepted
      rejected).1.eventContinuity.adverse = true := by
  induction events generalizing i state buffer accepted rejected with
  | nil => exact h
  | cons event events ih => exact ih (adverse_ingestProviderEvent h _ event) _ _ _

theorem reconciliation_ingestProviderEvents {i : Nat} {state : ProviderContinuityState}
    {buffer : EventBuffer} {accepted rejected : Nat} {receipt : ReconciliationSnapshotReceipt}
    (h : (ingestProviderEvents eventCapacity webBefore i events state buffer accepted
      rejected).1.reconciliation = some receipt) :
    state.reconciliation = some receipt ∧
      notesOfEvents eventCapacity webBefore i events state buffer = [] := by
  induction events generalizing i state buffer accepted rejected with
  | nil => exact ⟨h, rfl⟩
  | cons event events ih =>
    obtain ⟨hafter, hrest⟩ := ih h
    obtain ⟨hbefore, hevent⟩ := reconciliation_ingestProviderEvent hafter
    exact ⟨hbefore, append_eq_nil_iff.mpr ⟨hevent, hrest⟩⟩

end

/-! ## A call -/

/-- The session records a debt. -/
def SessionObservation.Adverse (s : SessionObservation) : Prop :=
  ∃ state, s.continuity = some state ∧ state.eventContinuity.adverse = true

/-- The current reconciliation, if there is one, is the last note. -/
def Reconciled (s : SessionObservation) (notes : List ContinuityNote) : Prop :=
  ∀ state receipt, s.continuity = some state → state.reconciliation = some receipt →
    notes.getLast? = some (.reconciled receipt)

theorem adverse_restartCause {state : ProviderContinuityState} {batch : ProviderObserverBatch}
    {cause : EventContinuityState} (h : state.restartCause batch = some cause) :
    cause.adverse = true := by
  unfold ProviderContinuityState.restartCause at h
  split_ifs at h
  all_goals
    cases h
    rfl

/-- Nothing but a release takes a debt away. -/
theorem adverse_call {eventCapacity : Nat} {s : SessionObservation} (h : s.Adverse)
    {c : ObservationCall} (hc : c ≠ .releaseProviderObservation) :
    (s.call eventCapacity c).Adverse := by
  obtain ⟨state, hstate, hadverse⟩ := h
  cases c with
  | bindProviderObservation binding =>
    refine ⟨state, ?_, hadverse⟩
    show (bindProviderObservation s binding).2.continuity = some state
    unfold bindProviderObservation
    rw [hstate]
    split <;> exact hstate
  | ingestProvider batch webBefore =>
    show (ingestProvider eventCapacity s batch webBefore).2.Adverse
    unfold ingestProvider
    rw [hstate]
    dsimp only [Option.getD_some]
    split
    · split
      · exact ⟨state, rfl, hadverse⟩
      · exact ⟨_, rfl, adverse_ingestProviderEvents hadverse _ _ _⟩
    · next cause hcause =>
      exact ⟨_, rfl, adverse_ingestProviderEvents (adverse_restartCause hcause) _ _ _⟩
  | recordReconciliation receipt =>
    show (recordReconciliation s receipt).2.Adverse
    obtain hrefused | ⟨state', hstate', hrecorded⟩ := recordReconciliation_cases s receipt
    · rw [hrefused]
      exact ⟨state, hstate, hadverse⟩
    · rw [hrecorded]
      obtain rfl := Option.some.inj (hstate.symm.trans hstate')
      exact ⟨_, rfl, hadverse⟩
  | ingestCollect batch => exact ⟨state, hstate, hadverse⟩
  | releaseProviderObservation => exact absurd rfl hc

open SessionObservation

/-- A reconciliation that outlives a batch was there before it, and the batch
leaves no note. -/
theorem reconciliation_ingestProvider {eventCapacity : Nat} {s : SessionObservation}
    {batch : ProviderObserverBatch} {webBefore : Nat → List ObserverBatch}
    {state' : ProviderContinuityState} {receipt : ReconciliationSnapshotReceipt}
    (hstate' : (ingestProvider eventCapacity s batch webBefore).2.continuity = some state')
    (hreceipt : state'.reconciliation = some receipt) :
    (∃ state, s.continuity = some state ∧ state.reconciliation = some receipt) ∧
      s.notesOfCall eventCapacity (.ingestProvider batch webBefore) = [] := by
  -- the state the batch starts from has only what the session has
  have hstart : ∀ receipt, (s.continuity.getD (.ofBatch batch)).reconciliation = some receipt →
      ∃ state, s.continuity = some state ∧ state.reconciliation = some receipt := by
    intro receipt hr
    cases hcont : s.continuity with
    | none => rw [hcont] at hr; cases hr
    | some state => rw [hcont] at hr; exact ⟨state, rfl, hr⟩
  unfold notesOfCall
  unfold ingestProvider at hstate'
  dsimp only at hstate' ⊢
  cases hcause : (s.continuity.getD (.ofBatch batch)).restartCause batch with
  | none =>
    simp only [hcause] at hstate' ⊢
    split_ifs at hstate' with hgeneration
    · cases hstate'
      rw [if_pos hgeneration]
      exact ⟨hstart receipt hreceipt, rfl⟩
    · cases hstate'
      obtain ⟨hbefore, hnotes⟩ := reconciliation_ingestProviderEvents hreceipt
      rw [if_neg hgeneration]
      exact ⟨hstart receipt hbefore, hnotes⟩
  | some cause =>
    simp only [hcause] at hstate'
    cases hstate'
    obtain ⟨hbefore, -⟩ := reconciliation_ingestProviderEvents hreceipt
    cases hbefore

/-- Every call keeps the current reconciliation behind all notes. -/
theorem reconciled_call {eventCapacity : Nat} {s : SessionObservation} {notes : List ContinuityNote}
    (h : Reconciled s notes) (c : ObservationCall) :
    Reconciled (s.call eventCapacity c) (notes ++ s.notesOfCall eventCapacity c) := by
  intro state' receipt hstate' hreceipt
  cases c with
  | bindProviderObservation binding =>
    have hkeep : (bindProviderObservation s binding).2.continuity = some state' := hstate'
    rw [notesOfCall, append_nil]
    unfold bindProviderObservation at hkeep
    split_ifs at hkeep with hinitial hbound
    · exact h _ _ hkeep hreceipt
    · exact h _ _ hkeep hreceipt
    · -- a new binding has reconciled nothing
      cases hkeep
      cases hreceipt
  | ingestProvider batch webBefore =>
    obtain ⟨⟨state, hstate, hbefore⟩, hnotes⟩ := reconciliation_ingestProvider hstate' hreceipt
    rw [hnotes, append_nil]
    exact h _ _ hstate hbefore
  | recordReconciliation recorded =>
    have hrec : (recordReconciliation s recorded).2.continuity = some state' := hstate'
    unfold notesOfCall
    dsimp only
    obtain hrefused | ⟨state, -, hrecorded⟩ := recordReconciliation_cases s recorded
    · rw [hrefused] at hrec
      rw [hrefused, if_neg Bool.false_ne_true, append_nil]
      exact h _ _ hrec hreceipt
    · rw [hrecorded] at hrec
      cases hrec
      obtain rfl : recorded = receipt := Option.some.inj hreceipt
      rw [hrecorded, if_pos rfl, getLast?_concat]
  | ingestCollect batch =>
    rw [notesOfCall, append_nil]
    exact h _ _ hstate' hreceipt
  | releaseProviderObservation => cases hstate'

/-! ## Runs -/

section
variable {eventCapacity : Nat} {s t : SessionObservation} {tr : List ObservationLabel}

theorem adverse_run (hrun : Run (ObservationStep eventCapacity) s tr t) (hs : s.Adverse)
    (hrel : ∀ l ∈ tr, l.call ≠ .releaseProviderObservation) : t.Adverse := by
  induction hrun with
  | nil => exact hs
  | cons hstep hrest ih =>
    refine ih ?_ fun l hl => hrel l (mem_cons_of_mem _ hl)
    rw [hstep.2]
    exact adverse_call hs (hrel _ mem_cons_self)

theorem reconciled_run (hrun : Run (ObservationStep eventCapacity) s tr t)
    (hs : Reconciled s []) : Reconciled t (notesOfRun tr) := by
  refine hrun.forward_induction (P := fun tr t => Reconciled t (notesOfRun tr)) hs ?_
  intro tr t l u _ ih hstep
  obtain ⟨hnotes, rfl⟩ := hstep
  have hsnoc : notesOfRun (tr ++ [l]) = notesOfRun tr ++ t.notesOfCall eventCapacity l.call := by
    unfold notesOfRun
    rw [flatMap_append, flatMap_singleton, hnotes]
  rw [hsnoc]
  exact reconciled_call ih l.call

end

/-- **Continuity debt is never laundered.**  In every run of a session that has
not been observed yet: while nothing is released, an adverse continuity is never
`continuous` or `orderingOpaque` again; and a current snapshot completeness is
that of the run's last note, so no gap, reset, restart or accepted opaque event
has followed the reconciliation it comes from. -/
theorem continuity_debt_never_laundered (eventCapacity : Nat) (buffer : EventBuffer)
    (tr : List ObservationLabel) (s : SessionObservation)
    (hrun : Run (ObservationStep eventCapacity) ⟨none, buffer⟩ tr s) :
    (∀ earlier later t status, tr = earlier ++ later →
        Run (ObservationStep eventCapacity) ⟨none, buffer⟩ earlier t →
        observationStatus t = some status → status.eventContinuity.adverse = true →
        (∀ l ∈ later, l.call ≠ .releaseProviderObservation) →
        ∃ status', observationStatus s = some status' ∧
          status'.eventContinuity ≠ .continuous ∧ status'.eventContinuity ≠ .orderingOpaque) ∧
      (∀ status completeness, observationStatus s = some status →
        status.currentSnapshotCompleteness = some completeness →
        ∃ earlier receipt, notesOfRun tr = earlier ++ [.reconciled receipt] ∧
          receipt.completeness = completeness ∧
          status.reconciliationReceiptId = some receipt.receiptId) := by
  constructor
  · rintro earlier later t status rfl hearlier hstatus hadverse hrel
    obtain ⟨u, hu, hlater⟩ := Run.append_iff.mp hrun
    obtain rfl : t = u := hearlier.unique (fun s l t t' h h' => h.2.trans h'.2.symm) hu
    obtain ⟨state, hstate, rfl⟩ := Option.map_eq_some_iff.mp hstatus
    obtain ⟨state', hstate', hadverse'⟩ := adverse_run hlater ⟨state, hstate, hadverse⟩ hrel
    refine ⟨state'.status, by rw [observationStatus, hstate']; rfl, ?_, ?_⟩
    · intro hc
      rw [show state'.eventContinuity = .continuous from hc] at hadverse'
      cases hadverse'
    · intro hc
      rw [show state'.eventContinuity = .orderingOpaque from hc] at hadverse'
      cases hadverse'
  · intro status completeness hstatus hcompleteness
    obtain ⟨state, hstate, rfl⟩ := Option.map_eq_some_iff.mp hstatus
    obtain ⟨receipt, hreceipt, hcomplete⟩ := Option.map_eq_some_iff.mp hcompleteness
    have hstart : Reconciled ⟨none, buffer⟩ [] := fun _ _ h => by cases h
    have hlast := reconciled_run hrun hstart state receipt hstate hreceipt
    obtain ⟨earlier, hearlier⟩ := getLast?_eq_some_iff.mp hlast
    refine ⟨earlier, receipt, hearlier, hcomplete, ?_⟩
    show state.reconciliation.map (·.receiptId) = some receipt.receiptId
    rw [hreceipt]
    rfl

/-- A reconciled session, then a gap, then a second reconciliation. -/
def sampleDebtCalls : List ObservationCall :=
  let batch (seqs : List Nat) : ProviderObserverBatch :=
    { generation := 1, providerIncarnationRef := ⟨"provider:1"⟩
      targetIncarnationRef := ⟨"target:1"⟩
      events := seqs.map fun seq => ⟨seq, 0, .domMutation, none, none, ""⟩ }
  let receipt (receiptId : String) : ReconciliationSnapshotReceipt :=
    { receiptId, providerIncarnationRef := ⟨"provider:1"⟩, targetIncarnationRef := ⟨"target:1"⟩
      snapshotCutRef := "cut:1", surfaceScope := "surface:1", completeness := .established
      cacheProfileRevision := "cache:1", permissionVisibilityRevision := "permission:1"
      captureSequence := 1, observedDigest := "digest:1", incompletenessDebt := [] }
  [.ingestProvider (batch [1, 2]) (fun _ => []), .recordReconciliation (receipt "receipt:1"),
    .ingestProvider (batch [9]) (fun _ => []), .recordReconciliation (receipt "receipt:2")]

/-- The labels and the last state of a sequence of calls. -/
def SessionObservation.calls (eventCapacity : Nat) (s : SessionObservation) :
    List ObservationCall → List ObservationLabel × SessionObservation
  | [] => ([], s)
  | c :: cs =>
      let (labels, t) := (s.call eventCapacity c).calls eventCapacity cs
      (⟨c, s.notesOfCall eventCapacity c⟩ :: labels, t)

theorem run_calls (eventCapacity : Nat) (s : SessionObservation) (cs : List ObservationCall) :
    Run (ObservationStep eventCapacity) s (s.calls eventCapacity cs).1
      (s.calls eventCapacity cs).2 := by
  induction cs generalizing s with
  | nil => exact Run.nil s
  | cons c cs ih => exact Run.cons ⟨rfl, rfl⟩ (ih _)

/-- The second reconciliation does not make the stream continuous again. -/
theorem continuity_debt_never_laundered_sample :
    let start : SessionObservation := ⟨none, ⟨0, none, []⟩⟩
    (∃ status, observationStatus (start.calls 32 sampleDebtCalls).2 = some status ∧
      status.eventContinuity ≠ .continuous ∧ status.eventContinuity ≠ .orderingOpaque) ∧
      ∃ earlier receipt, notesOfRun (start.calls 32 sampleDebtCalls).1 =
        earlier ++ [.reconciled receipt] ∧ receipt.completeness = .established ∧
        some "receipt:2" = some receipt.receiptId := by
  intro start
  obtain ⟨hnever, hlast⟩ := continuity_debt_never_laundered 32 ⟨0, none, []⟩ _ _
    (run_calls 32 start sampleDebtCalls)
  exact ⟨hnever (start.calls 32 (sampleDebtCalls.take 3)).1
      ((start.calls 32 sampleDebtCalls).1.drop 3) _ _ rfl
      (run_calls 32 start (sampleDebtCalls.take 3)) rfl rfl (by simp [sampleDebtCalls,
        calls]),
    hlast _ .established rfl rfl⟩

end Localview
