import Localview.Protocol

/-! # Provider event continuity

One session of the live bridge, as far as observation goes: the continuity state
a provider binding or a first provider batch creates, and the bounded event
buffer it shares with the web stream (`live-bridge/src/v43_lib.rs` over
`live-bridge/src/lib.rs`).  Both maps are keyed by session and every call touches
its own session only, so a session is modelled by itself.

The two halves keep separate generations and last sequences: the buffer drops
everything at or below what it has seen, and the continuity state opens a new
internal generation for it whenever a lineage restarts.

Provider generations and sequences are `u64`; additions that can reach the bound
saturate, and do so here.
-/
namespace Localview
open List

/-- `n.saturating_add(1)` on `u64`. -/
def saturatingSucc (n : Nat) : Nat := min (n + 1) u64Max

def providerBoundGenerationBase : Nat := 9223372036854775808

/-! ## The bounded buffer -/

/-- What an observer event reports. -/
inductive ObserverEventKind
  | domMutation
  | layout
  | route
  | focus
  | scroll
  | console
  | network
  | runtimeError
  | performance
  | hmr
  | semanticSnapshot

/-- An observed event; references and payloads are kept as their text. -/
structure ObserverEvent where
  seq : Nat
  capturedAt : Timestamp
  kind : ObserverEventKind
  (reference route : Option String)
  payload : String

/-- Events of one generation. -/
structure ObserverBatch where
  generation : Nat
  events : List ObserverEvent

/-- What became of a batch. -/
structure IngestReport where
  (accepted rejectedStale : Nat)
  lastSeq : Option Nat
  generation : Nat

/-- The event part of a `SessionBridgeState`. -/
structure EventBuffer where
  generation : Nat
  lastSeq : Option Nat
  events : List ObserverEvent

/-- `push_back`, then `pop_front` down to the capacity. -/
def pushBounded {α : Type} (capacity : Nat) (queue : List α) (a : α) : List α :=
  (queue ++ [a]).drop ((queue ++ [a]).length - capacity)

theorem getLast?_pushBounded {α : Type} {capacity : Nat} (hcap : 0 < capacity) (queue : List α)
    (a : α) : (pushBounded capacity queue a).getLast? = some a := by
  unfold pushBounded
  rw [drop_append_of_le_length, getLast?_concat]
  rw [length_append, length_singleton]
  omega

/-- The event is stale in a buffer that has seen the batch's generation. -/
def EventBuffer.stale (buffer : EventBuffer) (generation : Nat) (event : ObserverEvent) : Bool :=
  decide (generation < buffer.generation) || buffer.lastSeq.any fun seq => event.seq ≤ seq

/-- The loop of `ingest_collect`. -/
def ingestEvents (eventCapacity generation : Nat) :
    List ObserverEvent → EventBuffer → List ObserverEvent → Nat →
    EventBuffer × List ObserverEvent × Nat
  | [], buffer, accepted, rejectedStale => (buffer, accepted, rejectedStale)
  | event :: events, buffer, accepted, rejectedStale =>
      if buffer.stale generation event then
        ingestEvents eventCapacity generation events buffer accepted (rejectedStale + 1)
      else
        ingestEvents eventCapacity generation events
          { buffer with
            lastSeq := some event.seq
            events := pushBounded eventCapacity buffer.events event }
          (accepted ++ [event]) rejectedStale

/-- What a batch of a newer generation does to the buffer first. -/
def EventBuffer.advance (buffer : EventBuffer) (generation : Nat) : EventBuffer :=
  if buffer.generation < generation then { generation, lastSeq := none, events := [] } else buffer

/-- The bridge's own `ingest_collect`. -/
def ingestCollect (eventCapacity : Nat) (buffer : EventBuffer) (batch : ObserverBatch) :
    (IngestReport × List ObserverEvent) × EventBuffer :=
  let (buffer, accepted, rejectedStale) := ingestEvents eventCapacity batch.generation batch.events
    (buffer.advance batch.generation) [] 0
  (({ accepted := accepted.length
      rejectedStale
      lastSeq := buffer.lastSeq
      generation := buffer.generation }, accepted), buffer)

/-! ## The continuity state -/

structure ProviderObserverBatch where
  generation : Nat
  providerIncarnationRef : ProviderIncarnationRef
  targetIncarnationRef : TargetIncarnationRef
  events : List ObserverEvent

/-- Sequences that never came. -/
structure EventSequenceGap where
  (expectedSequence observedSequence : Nat)
  deriving DecidableEq

/-- What became of a provider's batch. -/
structure ProviderIngestReport where
  ingest : IngestReport
  providerIncarnationRef : ProviderIncarnationRef
  targetIncarnationRef : TargetIncarnationRef
  continuity : EventContinuityState
  gap : Option EventSequenceGap

/-- What a session says of its provider. -/
structure ObservationStatus where
  providerIncarnationRef : ProviderIncarnationRef
  targetIncarnationRef : TargetIncarnationRef
  generation : Nat
  lastSeq : Option Nat
  eventContinuity : EventContinuityState
  currentSnapshotCompleteness : Option ReconciliationCompleteness
  reconciliationReceiptId : Option String
  gap : Option EventSequenceGap
  deriving DecidableEq

/-- The provider a session is to follow. -/
structure ProviderObservationBinding where
  generation : Nat
  providerIncarnationRef : ProviderIncarnationRef
  targetIncarnationRef : TargetIncarnationRef
  initialContinuity : EventContinuityState
  sequenceBaseline : Option Nat

/-- Why a provider is not bound. -/
inductive ProviderObservationBindingError
  | alreadyBound
  | unsupportedInitialContinuity

/-- The provider a session follows. -/
structure ProviderContinuityState where
  providerIncarnationRef : ProviderIncarnationRef
  targetIncarnationRef : TargetIncarnationRef
  generation : Nat
  /-- The generation this lineage writes the buffer under. -/
  legacyGeneration : Nat
  lastSeq : Option Nat
  eventContinuity : EventContinuityState
  gap : Option EventSequenceGap
  reconciliation : Option ReconciliationSnapshotReceipt

namespace ProviderContinuityState

/-- `ProviderContinuityState::new` -/
def ofBatch (batch : ProviderObserverBatch) : ProviderContinuityState :=
  { providerIncarnationRef := batch.providerIncarnationRef
    targetIncarnationRef := batch.targetIncarnationRef, generation := batch.generation
    legacyGeneration := providerBoundGenerationBase, lastSeq := none, eventContinuity := .continuous
    gap := none, reconciliation := none }

def fromBinding (binding : ProviderObservationBinding) : ProviderContinuityState :=
  { providerIncarnationRef := binding.providerIncarnationRef
    targetIncarnationRef := binding.targetIncarnationRef, generation := binding.generation
    legacyGeneration := providerBoundGenerationBase, lastSeq := binding.sequenceBaseline
    eventContinuity := binding.initialContinuity, gap := none, reconciliation := none }

def status (state : ProviderContinuityState) : ObservationStatus :=
  { providerIncarnationRef := state.providerIncarnationRef
    targetIncarnationRef := state.targetIncarnationRef, generation := state.generation
    lastSeq := state.lastSeq, eventContinuity := state.eventContinuity
    currentSnapshotCompleteness := state.reconciliation.map (·.completeness)
    reconciliationReceiptId := state.reconciliation.map (·.receiptId), gap := state.gap }

def restartLineage (state : ProviderContinuityState) (batch : ProviderObserverBatch)
    (continuity : EventContinuityState) : ProviderContinuityState :=
  { providerIncarnationRef := batch.providerIncarnationRef
    targetIncarnationRef := batch.targetIncarnationRef, generation := batch.generation
    legacyGeneration := saturatingSucc state.legacyGeneration, lastSeq := none
    eventContinuity := continuity, gap := none, reconciliation := none }

/-- `observe_sequence`; the answer the code returns and ignores is left out. -/
def observeSequence (state : ProviderContinuityState) (sequence : Nat) :
    ProviderContinuityState :=
  match state.lastSeq with
  | none => { state with lastSeq := some sequence }
  | some previous =>
      if sequence = previous then state
      else if sequence < previous then
        { state with
          legacyGeneration := saturatingSucc state.legacyGeneration
          lastSeq := some sequence
          eventContinuity := .sequenceReset
          gap := none
          reconciliation := none }
      else if saturatingSucc previous < sequence then
        { state with
          eventContinuity := .gapDetected
          gap := some ⟨saturatingSucc previous, sequence⟩
          reconciliation := none
          lastSeq := some sequence }
      else { state with lastSeq := some sequence }

/-- Why a batch restarts the lineage, if it does. -/
def restartCause (state : ProviderContinuityState) (batch : ProviderObserverBatch) :
    Option EventContinuityState :=
  if batch.providerIncarnationRef ≠ state.providerIncarnationRef then some .providerReincarnated
  else if batch.targetIncarnationRef ≠ state.targetIncarnationRef then some .reconciliationRequired
  else if state.generation < batch.generation then some .reconnectedUnreconciled
  else none

end ProviderContinuityState

/-! ## The session -/

/-- The observation part of one session. -/
structure SessionObservation where
  continuity : Option ProviderContinuityState
  buffer : EventBuffer

def bindProviderObservation (s : SessionObservation) (binding : ProviderObservationBinding) :
    Except ProviderObservationBindingError ObservationStatus × SessionObservation :=
  if binding.initialContinuity ≠ .continuous ∧ binding.initialContinuity ≠ .orderingOpaque ∧
      binding.initialContinuity ≠ .reconciliationRequired then
    (.error .unsupportedInitialContinuity, s)
  else if s.continuity.isSome then (.error .alreadyBound, s)
  else
    let state := ProviderContinuityState.fromBinding binding
    (.ok state.status, { s with continuity := some state })

/-- One event of `ingest_provider`: observe its sequence, then offer it to the
buffer under the lineage's own generation. -/
def ingestProviderEvent (eventCapacity : Nat) (state : ProviderContinuityState)
    (buffer : EventBuffer) (event : ObserverEvent) :
    IngestReport × ProviderContinuityState × EventBuffer :=
  let state := state.observeSequence event.seq
  let ((report, _), buffer) := ingestCollect eventCapacity buffer
    { generation := state.legacyGeneration, events := [event] }
  -- an accepted ordering-opaque callback invalidates the snapshot before it
  if 0 < report.accepted ∧ state.eventContinuity = .orderingOpaque then
    (report, { state with reconciliation := none }, buffer)
  else (report, state, buffer)

/-- Web batches, one after the other. -/
def ingestWeb (eventCapacity : Nat) (buffer : EventBuffer) (batches : List ObserverBatch) :
    EventBuffer :=
  batches.foldl (fun buffer batch => (ingestCollect eventCapacity buffer batch).2) buffer

/-- The loop of `ingest_provider`.  The buffer's lock is taken for each event
anew: `webBefore i` are the web batches that reach it before the `i`-th. -/
def ingestProviderEvents (eventCapacity : Nat) (webBefore : Nat → List ObserverBatch) :
    Nat → List ObserverEvent → ProviderContinuityState → EventBuffer → Nat → Nat →
    ProviderContinuityState × EventBuffer × Nat × Nat
  | _, [], state, buffer, accepted, rejectedStale => (state, buffer, accepted, rejectedStale)
  | i, event :: events, state, buffer, accepted, rejectedStale =>
      let (report, state, buffer) := ingestProviderEvent eventCapacity state
        (ingestWeb eventCapacity buffer (webBefore i)) event
      ingestProviderEvents eventCapacity webBefore (i + 1) events state buffer
        (accepted + report.accepted) (rejectedStale + report.rejectedStale)

/-- What the report of `ingest_provider` says of the state. -/
def ProviderContinuityState.report (state : ProviderContinuityState)
    (accepted rejectedStale : Nat) : ProviderIngestReport :=
  { ingest :=
      { accepted, rejectedStale, lastSeq := state.lastSeq, generation := state.generation }
    providerIncarnationRef := state.providerIncarnationRef
    targetIncarnationRef := state.targetIncarnationRef
    continuity := state.eventContinuity
    gap := state.gap }

def ingestProvider (eventCapacity : Nat) (s : SessionObservation) (batch : ProviderObserverBatch)
    (webBefore : Nat → List ObserverBatch) : ProviderIngestReport × SessionObservation :=
  let state := s.continuity.getD (.ofBatch batch)
  match state.restartCause batch with
  | none =>
      if batch.generation < state.generation then
        (state.report 0 batch.events.length, { s with continuity := some state })
      else
        let (state, buffer, accepted, rejectedStale) :=
          ingestProviderEvents eventCapacity webBefore 0 batch.events state s.buffer 0 0
        (state.report accepted rejectedStale, { continuity := some state, buffer })
  | some cause =>
      let (state, buffer, accepted, rejectedStale) := ingestProviderEvents eventCapacity webBefore
        0 batch.events (state.restartLineage batch cause) s.buffer 0 0
      (state.report accepted rejectedStale, { continuity := some state, buffer })

theorem continuity_ingestProvider (eventCapacity : Nat) (s : SessionObservation)
    (batch : ProviderObserverBatch) (webBefore : Nat → List ObserverBatch) :
    ∃ state, (ingestProvider eventCapacity s batch webBefore).2.continuity = some state := by
  unfold ingestProvider
  dsimp only
  split
  · split
    · exact ⟨_, rfl⟩
    · exact ⟨_, rfl⟩
  · exact ⟨_, rfl⟩

def recordReconciliation (s : SessionObservation) (receipt : ReconciliationSnapshotReceipt) :
    Bool × SessionObservation :=
  match s.continuity with
  | none => (false, s)
  | some state =>
      if receipt.providerIncarnationRef ≠ state.providerIncarnationRef ∨
          receipt.targetIncarnationRef ≠ state.targetIncarnationRef then (false, s)
      else (true, { s with continuity := some { state with reconciliation := some receipt } })

theorem recordReconciliation_cases (s : SessionObservation)
    (receipt : ReconciliationSnapshotReceipt) :
    recordReconciliation s receipt = (false, s) ∨
      ∃ state, s.continuity = some state ∧ recordReconciliation s receipt =
        (true, { s with continuity := some { state with reconciliation := some receipt } }) := by
  unfold recordReconciliation
  split
  · exact .inl rfl
  · next state hstate =>
    split
    · exact .inl rfl
    · exact .inr ⟨state, hstate, rfl⟩

def releaseProviderObservation (s : SessionObservation) : Bool × SessionObservation :=
  (s.continuity.isSome, { s with continuity := none })

def observationStatus (s : SessionObservation) : Option ObservationStatus :=
  s.continuity.map (·.status)

/-- A call on a session's observation. -/
inductive ObservationCall
  | bindProviderObservation (binding : ProviderObservationBinding)
  | ingestProvider (batch : ProviderObserverBatch) (webBefore : Nat → List ObserverBatch)
  | recordReconciliation (receipt : ReconciliationSnapshotReceipt)
  /-- The web stream's `ingest_collect`. -/
  | ingestCollect (batch : ObserverBatch)
  | releaseProviderObservation

/-- Run one call. -/
def SessionObservation.call (eventCapacity : Nat) (s : SessionObservation) :
    ObservationCall → SessionObservation
  | .bindProviderObservation binding => (Localview.bindProviderObservation s binding).2
  | .ingestProvider batch webBefore => (Localview.ingestProvider eventCapacity s batch webBefore).2
  | .recordReconciliation receipt => (Localview.recordReconciliation s receipt).2
  | .ingestCollect batch =>
      { s with buffer := (Localview.ingestCollect eventCapacity s.buffer batch).2 }
  | .releaseProviderObservation => (Localview.releaseProviderObservation s).2

end Localview
