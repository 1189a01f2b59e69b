import Localview.ProviderContinuity

/-! # Delivery of provider events

Which events of a session's provider stream reach the bounded buffer.  A *lineage*
starts when the session is bound, when a batch restarts it and when a sequence
number falls below the last one; `seen` carries the numbers observed in the
current one.  Batches of an older generation belong to no lineage the session
still follows, and nothing of them is observed.

Inside a lineage the continuity state and the buffer move together (`Tracks`): the
buffer's last sequence is the largest number seen.  What this rests on is the
first event of the lineage.  `release_provider_observation` drops the continuity
state and keeps the buffer, and the next binding counts its internal generations
from `PROVIDER_BOUND_GENERATION_BASE` again, so the first event of a lineage may
find a buffer that is already ahead of it.
-/
namespace Localview
open List

/-- What one event met, and what became of it. -/
structure EventRecord where
  /-- The sequence numbers of its lineage before it. -/
  seen : List Nat
  event : ObserverEvent
  /-- The generation it is offered under. -/
  generation : Nat
  before : EventBuffer
  report : IngestReport
  state : ProviderContinuityState
  buffer : EventBuffer

namespace EventRecord

/-- The event's number is above every number seen in its lineage. -/
def Fresh (r : EventRecord) : Prop := ∀ n ∈ r.seen, n < r.event.seq

/-- A fresh event is accepted: it is the last of the buffer, and under opaque
ordering it takes the current reconciliation away.  An event that is rejected as
stale repeats a number of its lineage. -/
def Delivered (r : EventRecord) : Prop :=
  (r.Fresh → r.report.accepted = 1 ∧ r.buffer.events.getLast? = some r.event ∧
    (r.state.eventContinuity = .orderingOpaque → r.state.reconciliation = none)) ∧
  (r.report.rejectedStale ≠ 0 → r.event.seq ∈ r.seen)

/-- The buffer is behind the event: at an older generation, or at the same one
with a smaller last sequence. -/
def Fits (r : EventRecord) : Prop :=
  r.before.generation < r.generation ∨
    r.before.generation = r.generation ∧ ∀ last, r.before.lastSeq = some last → last < r.event.seq

/-- Where it is the first of its lineage, the event finds the buffer behind it. -/
def FirstFits (r : EventRecord) : Prop := r.seen = [] → r.Fits

end EventRecord

/-- A lineage under way. -/
structure Lineage where
  state : ProviderContinuityState
  buffer : EventBuffer
  seen : List Nat

/-- The numbers seen in the lineage an event belongs to: a number below the last
one starts a lineage of its own. -/
def Lineage.seenBefore (l : Lineage) (event : ObserverEvent) : List Nat :=
  if l.state.lastSeq.any (fun previous => event.seq < previous) = true then [] else l.seen

/-- One event of `ingest_provider`, recorded. -/
def Lineage.observe (eventCapacity : Nat) (l : Lineage) (event : ObserverEvent) :
    EventRecord × Lineage :=
  let (report, state, buffer) := ingestProviderEvent eventCapacity l.state l.buffer event
  ({ seen := l.seenBefore event
     event
     generation := (l.state.observeSequence event.seq).legacyGeneration
     before := l.buffer
     report
     state
     buffer },
   { state, buffer, seen := event.seq :: l.seenBefore event })

/-- The events of a batch. -/
def Lineage.observeAll (eventCapacity : Nat) :
    List ObserverEvent → Lineage → List EventRecord × Lineage
  | [], l => ([], l)
  | event :: events, l =>
      let (record, l) := l.observe eventCapacity event
      let (records, l) := observeAll eventCapacity events l
      (record :: records, l)

/-! ## The provider's calls of a session -/

/-- A call on a provider's session. -/
inductive ProviderCall
  | bindProviderObservation (binding : ProviderObservationBinding)
  | ingestProvider (batch : ProviderObserverBatch)
  | recordReconciliation (receipt : ReconciliationSnapshotReceipt)
  | releaseProviderObservation

/-- The call, with no web batch in between. -/
def ProviderCall.toObservationCall : ProviderCall → ObservationCall
  | .bindProviderObservation binding => .bindProviderObservation binding
  | .ingestProvider batch => .ingestProvider batch fun _ => []
  | .recordReconciliation receipt => .recordReconciliation receipt
  | .releaseProviderObservation => .releaseProviderObservation

/-- A session and the numbers seen in its current lineage. -/
structure TrackedSession where
  session : SessionObservation
  seen : List Nat

/-- The numbers seen so far; none where the call starts the observation. -/
def TrackedSession.current (s : TrackedSession) : List Nat :=
  if s.session.continuity.isSome then s.seen else []

/-- Run one call, recording the events observed. -/
def TrackedSession.call (eventCapacity : Nat) (s : TrackedSession) :
    ProviderCall → List EventRecord × TrackedSession
  | .ingestProvider batch =>
      let state := s.session.continuity.getD (.ofBatch batch)
      match state.restartCause batch with
      | none =>
          if batch.generation < state.generation then
            ([], ⟨{ s.session with continuity := some state }, s.current⟩)
          else
            let (records, l) := Lineage.observeAll eventCapacity batch.events
              ⟨state, s.session.buffer, s.current⟩
            (records, ⟨⟨some l.state, l.buffer⟩, l.seen⟩)
      | some cause =>
          let (records, l) := Lineage.observeAll eventCapacity batch.events
            ⟨state.restartLineage batch cause, s.session.buffer, []⟩
          (records, ⟨⟨some l.state, l.buffer⟩, l.seen⟩)
  | .bindProviderObservation binding =>
      ([], ⟨(Localview.bindProviderObservation s.session binding).2, s.current⟩)
  | .recordReconciliation receipt =>
      ([], ⟨(Localview.recordReconciliation s.session receipt).2, s.seen⟩)
  | .releaseProviderObservation =>
      ([], ⟨(Localview.releaseProviderObservation s.session).2, s.seen⟩)

/-- The records of a sequence of calls. -/
def TrackedSession.records (eventCapacity : Nat) :
    List ProviderCall → TrackedSession → List EventRecord
  | [], _ => []
  | c :: cs, s =>
      (s.call eventCapacity c).1 ++ records eventCapacity cs (s.call eventCapacity c).2

/-- `event_capacity.max(32)` of `LiveBridge::new` -/
def newEventCapacity (requested : Nat) : Nat := max requested 32

/-! ## The recording changes nothing -/

section
variable {eventCapacity : Nat}

/-- A recorded batch leaves the state and the buffer that `ingest_provider` leaves. -/
theorem observeAll_ingests (events : List ObserverEvent) (l : Lineage)
    (i accepted rejectedStale : Nat) :
    let loop := ingestProviderEvents eventCapacity (fun _ => []) i events l.state l.buffer
      accepted rejectedStale
    (Lineage.observeAll eventCapacity events l).2.state = loop.1 ∧
      (Lineage.observeAll eventCapacity events l).2.buffer = loop.2.1 := by
  induction events generalizing l i accepted rejectedStale with
  | nil => exact ⟨rfl, rfl⟩
  | cons event events ih => exact ih (l.observe eventCapacity event).2 (i + 1) _ _

/-- The session of a recorded call is the session after the call. -/
theorem session_call (s : TrackedSession) (c : ProviderCall) :
    (s.call eventCapacity c).2.session = s.session.call eventCapacity c.toObservationCall := by
  cases c with
  | bindProviderObservation binding => rfl
  | recordReconciliation receipt => rfl
  | releaseProviderObservation => rfl
  | ingestProvider batch =>
    have hloop := fun (state : ProviderContinuityState) (seen : List Nat) =>
      @observeAll_ingests eventCapacity batch.events ⟨state, s.session.buffer, seen⟩ 0 0 0
    rcases hcause : (s.session.continuity.getD (.ofBatch batch)).restartCause batch with
      _ | cause
    · by_cases holder : batch.generation < (s.session.continuity.getD (.ofBatch batch)).generation
      · simp only [TrackedSession.call, SessionObservation.call, ProviderCall.toObservationCall,
          Localview.ingestProvider, hcause, if_pos holder]
      · simp only [TrackedSession.call, SessionObservation.call, ProviderCall.toObservationCall,
          Localview.ingestProvider, hcause, if_neg holder, (hloop _ _).1, (hloop _ _).2]
    · simp only [TrackedSession.call, SessionObservation.call, ProviderCall.toObservationCall,
        Localview.ingestProvider, hcause, (hloop _ _).1, (hloop _ _).2]

end

/-! ## One event -/

section
variable {eventCapacity : Nat}

/-- An event alone in its batch: rejected where it is stale, else the last of the
buffer. -/
theorem ingestCollect_single (buffer : EventBuffer) (generation : Nat) (event : ObserverEvent) :
    ingestCollect eventCapacity buffer ⟨generation, [event]⟩ =
      let advanced := buffer.advance generation
      if advanced.stale generation event then
        ((⟨0, 1, advanced.lastSeq, advanced.generation⟩, []), advanced)
      else
        ((⟨1, 0, some event.seq, advanced.generation⟩, [event]),
          { advanced with
            lastSeq := some event.seq
            events := pushBounded eventCapacity advanced.events event }) := by
  unfold ingestCollect
  simp only [ingestEvents]
  split_ifs <;> rfl

@[simp] theorem lastSeq_observeSequence (state : ProviderContinuityState) (sequence : Nat) :
    (state.observeSequence sequence).lastSeq = some sequence := by
  unfold ProviderContinuityState.observeSequence
  split
  · rfl
  · next previous hlast =>
    split_ifs with heq
    · rw [hlast, heq]
    · rfl
    · rfl
    · rfl

/-- A number that does not fall stays in the generation. -/
theorem legacyGeneration_observeSequence {state : ProviderContinuityState} {sequence previous : Nat}
    (hlast : state.lastSeq = some previous) (hle : previous ≤ sequence) :
    (state.observeSequence sequence).legacyGeneration = state.legacyGeneration := by
  unfold ProviderContinuityState.observeSequence
  rw [hlast]
  dsimp only
  split_ifs with heq hlt
  · rfl
  · omega
  · rfl
  · rfl

/-- The buffer takes an event exactly where it is behind it. -/
theorem stale_advance_iff (buffer : EventBuffer) (generation : Nat) (event : ObserverEvent) :
    (buffer.advance generation).stale generation event = false ↔
      buffer.generation < generation ∨
        buffer.generation = generation ∧ ∀ last, buffer.lastSeq = some last → last < event.seq := by
  unfold EventBuffer.advance EventBuffer.stale
  by_cases hnewer : buffer.generation < generation
  · rw [if_pos hnewer]
    simp [hnewer]
  · rw [if_neg hnewer]
    simp only [Bool.or_eq_false_iff, decide_eq_false_iff_not, Option.any_eq_false]
    constructor
    · rintro ⟨hgen, hlast⟩
      refine .inr ⟨by omega, fun last h => ?_⟩
      have hnot := hlast last h
      simpa using hnot
    · rintro (h | ⟨hgen, hlast⟩)
      · exact absurd h hnewer
      · exact ⟨by omega, fun last h => by simpa using hlast last h⟩

/-- Where the buffer has moved to once it has taken an event. -/
theorem generation_advance {buffer : EventBuffer} {generation : Nat}
    (h : buffer.generation ≤ generation) : (buffer.advance generation).generation = generation := by
  unfold EventBuffer.advance
  split_ifs
  · rfl
  · show buffer.generation = generation
    omega

end

section
variable {eventCapacity : Nat} (l : Lineage) (event : ObserverEvent)

theorem observe_state :
    (l.observe eventCapacity event).2.state.lastSeq = some event.seq ∧
      (l.observe eventCapacity event).2.state.legacyGeneration =
        (l.observe eventCapacity event).1.generation := by
  simp only [Lineage.observe, ingestProviderEvent]
  split_ifs
  · exact ⟨lastSeq_observeSequence _ _, rfl⟩
  · exact ⟨lastSeq_observeSequence _ _, rfl⟩

theorem observe_of_fits (hcap : 0 < eventCapacity)
    (h : (l.observe eventCapacity event).1.Fits) :
    let r := (l.observe eventCapacity event).1
    r.report.accepted = 1 ∧ r.report.rejectedStale = 0 ∧
      r.buffer.events.getLast? = some event ∧ r.buffer.generation = r.generation ∧
      r.buffer.lastSeq = some event.seq ∧
      (r.state.eventContinuity = .orderingOpaque → r.state.reconciliation = none) := by
  have hfresh := (stale_advance_iff l.buffer
    (l.state.observeSequence event.seq).legacyGeneration event).mpr h
  have hgen : l.buffer.generation ≤ (l.state.observeSequence event.seq).legacyGeneration := by
    rcases h with h | ⟨h, -⟩
    · exact Nat.le_of_lt h
    · exact Nat.le_of_eq h
  simp only [Lineage.observe, ingestProviderEvent, ingestCollect_single, hfresh,
    Bool.false_eq_true, if_false, generation_advance hgen, Nat.zero_lt_one, true_and]
  refine ⟨?_, ?_, ?_, ?_, ?_, ?_⟩
  all_goals split_ifs with hsilent
  all_goals first
    | rfl
    | exact getLast?_pushBounded hcap _ event
    | exact fun _ => rfl
    | exact fun h => absurd h hsilent

theorem observe_of_not_fits (h : ¬ (l.observe eventCapacity event).1.Fits) :
    let r := (l.observe eventCapacity event).1
    r.report.accepted = 0 ∧ r.report.rejectedStale = 1 ∧
      r.buffer = l.buffer.advance r.generation := by
  have hstale : (l.buffer.advance (l.state.observeSequence event.seq).legacyGeneration).stale
      (l.state.observeSequence event.seq).legacyGeneration event = true := by
    rw [← Bool.not_eq_false]
    exact fun hf => h ((stale_advance_iff _ _ _).mp hf)
  simp only [Lineage.observe, ingestProviderEvent, ingestCollect_single, hstale, if_true,
    Nat.lt_irrefl, false_and, if_false, and_self]

end

/-! ## Lineages -/

/-- A lineage that has seen an event and its buffer are at the same generation
and the same last number. -/
def Tracks (l : Lineage) : Prop :=
  l.seen ≠ [] → ∃ last ∈ l.seen, l.state.lastSeq = some last ∧
    l.buffer.generation = l.state.legacyGeneration ∧ l.buffer.lastSeq = some last

section
variable {eventCapacity : Nat} {l : Lineage}

/-- An event finds the buffer behind it, or at its own number. -/
theorem fits_or_repeats (ht : Tracks l) (event : ObserverEvent)
    (hf : (l.observe eventCapacity event).1.FirstFits) :
    (l.observe eventCapacity event).1.Fits ∨
      (event.seq ∈ l.seenBefore event ∧
        l.buffer.generation = (l.observe eventCapacity event).1.generation ∧
        l.buffer.lastSeq = some event.seq) := by
  by_cases hfirst : l.seenBefore event = []
  · exact .inl (hf hfirst)
  · -- the event continues the lineage, so its number is not below the last one
    have hcontinues : ¬ l.state.lastSeq.any (fun previous => event.seq < previous) = true := by
      intro h
      exact hfirst (if_pos h)
    have hseen : l.seenBefore event = l.seen := if_neg hcontinues
    rw [hseen] at hfirst ⊢
    obtain ⟨last, hmem, hlast, hgen, hbuffer⟩ := ht hfirst
    have hle : last ≤ event.seq := by
      rw [hlast] at hcontinues
      simpa using hcontinues
    have hgeneration : l.buffer.generation = (l.observe eventCapacity event).1.generation :=
      hgen.trans (legacyGeneration_observeSequence hlast hle).symm
    rcases Nat.lt_or_eq_of_le hle with hlt | rfl
    · refine .inl (Or.inr ⟨hgeneration, fun last' h => ?_⟩)
      obtain rfl : last = last' := Option.some.inj (hbuffer.symm.trans h)
      exact hlt
    · exact .inr ⟨hmem, hgeneration, hbuffer⟩

/-- One event of a lineage that tracks its buffer is delivered, and the lineage
tracks it on. -/
theorem observe_delivers (hcap : 0 < eventCapacity) (ht : Tracks l) (event : ObserverEvent)
    (hf : (l.observe eventCapacity event).1.FirstFits) :
    (l.observe eventCapacity event).1.Delivered ∧ Tracks (l.observe eventCapacity event).2 := by
  obtain ⟨hlast, hgeneration⟩ := @observe_state eventCapacity l event
  by_cases hfits : (l.observe eventCapacity event).1.Fits
  · obtain ⟨haccepted, hrejected, hpushed, hgen, hseq, hsilent⟩ := observe_of_fits l event hcap hfits
    refine ⟨⟨fun _ => ⟨haccepted, hpushed, hsilent⟩, fun h => absurd hrejected h⟩, fun _ => ?_⟩
    exact ⟨event.seq, mem_cons_self, hlast, hgen.trans hgeneration.symm, hseq⟩
  · obtain ⟨-, -, hbuffer⟩ := observe_of_not_fits l event hfits
    obtain ⟨hmem, hgen, hseq⟩ := (fits_or_repeats ht event hf).resolve_left hfits
    have hkept : l.buffer.advance (l.observe eventCapacity event).1.generation = l.buffer := by
      unfold EventBuffer.advance
      exact if_neg (by omega)
    rw [hkept] at hbuffer
    refine ⟨⟨fun hfresh => absurd (hfresh _ hmem) (Nat.lt_irrefl _), fun _ => hmem⟩, fun _ => ?_⟩
    refine ⟨event.seq, mem_cons_self, hlast, ?_, ?_⟩
    · rw [hgeneration, ← hgen]
      exact congrArg EventBuffer.generation hbuffer
    · exact (congrArg EventBuffer.lastSeq hbuffer).trans hseq

/-- The first event of a lineage is accepted only where the buffer is behind it. -/
theorem firstFits_of_delivered (event : ObserverEvent)
    (h : (l.observe eventCapacity event).1.Delivered) :
    (l.observe eventCapacity event).1.FirstFits := by
  intro hfirst
  by_contra hfits
  obtain ⟨haccepted, -, -⟩ := observe_of_not_fits l event hfits
  have hfresh : (l.observe eventCapacity event).1.Fresh := by
    intro n hn
    rw [hfirst] at hn
    cases hn
  obtain ⟨hone, -⟩ := h.1 hfresh
  omega

theorem observeAll_delivers (hcap : 0 < eventCapacity) (events : List ObserverEvent)
    (ht : Tracks l) (hf : ∀ r ∈ (l.observeAll eventCapacity events).1, r.FirstFits) :
    (∀ r ∈ (l.observeAll eventCapacity events).1, r.Delivered) ∧
      Tracks (l.observeAll eventCapacity events).2 := by
  induction events generalizing l with
  | nil => exact ⟨forall_mem_nil _, ht⟩
  | cons event events ih =>
    simp only [Lineage.observeAll, forall_mem_cons] at hf ⊢
    obtain ⟨hevent, htracks⟩ := observe_delivers hcap ht event hf.1
    obtain ⟨hrest, hend⟩ := ih htracks hf.2
    exact ⟨⟨hevent, hrest⟩, hend⟩

theorem mem_observeAll {events : List ObserverEvent} {r : EventRecord}
    (h : r ∈ (l.observeAll eventCapacity events).1) :
    ∃ (l' : Lineage) (event : ObserverEvent), r = (l'.observe eventCapacity event).1 := by
  induction events generalizing l with
  | nil => cases h
  | cons event events ih =>
    simp only [Lineage.observeAll, mem_cons] at h
    rcases h with rfl | h
    · exact ⟨l, event, rfl⟩
    · exact ih h

end

/-! ## Sessions -/

def TrackedSession.InStep (s : TrackedSession) : Prop :=
  ∀ state, s.session.continuity = some state → Tracks ⟨state, s.session.buffer, s.seen⟩

theorem tracks_of_unseen (state : ProviderContinuityState) (buffer : EventBuffer) :
    Tracks ⟨state, buffer, []⟩ := fun h => absurd rfl h

section
variable {eventCapacity : Nat} {s : TrackedSession}

theorem tracks_start (h : s.InStep) (batch : ProviderObserverBatch) :
    Tracks ⟨s.session.continuity.getD (.ofBatch batch), s.session.buffer, s.current⟩ := by
  unfold TrackedSession.current
  cases hcont : s.session.continuity with
  | none => exact tracks_of_unseen _ _
  | some state => exact h state hcont

theorem call_delivers (hcap : 0 < eventCapacity) (h : s.InStep) (c : ProviderCall)
    (hf : ∀ r ∈ (s.call eventCapacity c).1, r.FirstFits) :
    (∀ r ∈ (s.call eventCapacity c).1, r.Delivered) ∧ (s.call eventCapacity c).2.InStep := by
  cases c with
  | bindProviderObservation binding =>
    refine ⟨forall_mem_nil _, fun state hstate => ?_⟩
    simp only [TrackedSession.call, bindProviderObservation] at hstate ⊢
    unfold TrackedSession.current
    split_ifs at hstate ⊢ with hinitial hbound
    · exact h state hstate
    · rw [hstate] at hbound
      exact absurd rfl hbound
    · exact h state hstate
    · exact tracks_of_unseen _ _
  | ingestProvider batch =>
    have hstart := tracks_start h batch
    simp only [TrackedSession.call] at hf ⊢
    cases hcause : (s.session.continuity.getD (.ofBatch batch)).restartCause batch with
    | none =>
      rw [hcause] at hf
      dsimp only at hf ⊢
      split_ifs at hf ⊢
      · refine ⟨forall_mem_nil _, fun state hstate => ?_⟩
        cases hstate
        exact hstart
      · obtain ⟨hall, hend⟩ := observeAll_delivers hcap batch.events hstart hf
        refine ⟨hall, fun state hstate => ?_⟩
        cases hstate
        exact hend
    | some cause =>
      rw [hcause] at hf
      obtain ⟨hall, hend⟩ := observeAll_delivers hcap batch.events (tracks_of_unseen _ _) hf
      refine ⟨hall, fun state hstate => ?_⟩
      cases hstate
      exact hend
  | recordReconciliation receipt =>
    refine ⟨forall_mem_nil _, fun state hstate => ?_⟩
    simp only [TrackedSession.call] at hstate ⊢
    obtain hrefused | ⟨state', hsome, hrecorded⟩ := recordReconciliation_cases s.session receipt
    · rw [hrefused] at hstate ⊢
      exact h state hstate
    · rw [hrecorded] at hstate ⊢
      cases hstate
      exact h state' hsome
  | releaseProviderObservation =>
    refine ⟨forall_mem_nil _, fun state hstate => ?_⟩
    cases hstate

theorem records_deliver (hcap : 0 < eventCapacity) (cs : List ProviderCall) (h : s.InStep)
    (hf : ∀ r ∈ TrackedSession.records eventCapacity cs s, r.FirstFits) :
    ∀ r ∈ TrackedSession.records eventCapacity cs s, r.Delivered := by
  induction cs generalizing s with
  | nil => exact forall_mem_nil _
  | cons c cs ih =>
    simp only [TrackedSession.records, forall_mem_append] at hf ⊢
    obtain ⟨hcall, hnext⟩ := call_delivers hcap h c hf.1
    exact ⟨hcall, ih hnext hf.2⟩

theorem mem_records {cs : List ProviderCall} {r : EventRecord}
    (h : r ∈ TrackedSession.records eventCapacity cs s) :
    ∃ (l : Lineage) (event : ObserverEvent), r = (l.observe eventCapacity event).1 := by
  induction cs generalizing s with
  | nil => cases h
  | cons c cs ih =>
    rcases mem_append.mp h with h | h
    · cases c with
      | ingestProvider batch =>
        simp only [TrackedSession.call] at h
        split at h
        · split_ifs at h
          · cases h
          · exact mem_observeAll h
        · exact mem_observeAll h
      | bindProviderObservation | recordReconciliation | releaseProviderObservation => cases h
    · exact ih h

end

/-- **Delivery.**  In a run of the provider's calls of a session, every event is
delivered exactly where the first event of each lineage finds the buffer behind
it. -/
theorem delivered_iff_firstFits (requested : Nat) (buffer : EventBuffer)
    (cs : List ProviderCall) :
    let records := TrackedSession.records (newEventCapacity requested) cs ⟨⟨none, buffer⟩, []⟩
    (∀ r ∈ records, r.Delivered) ↔ ∀ r ∈ records, r.FirstFits := by
  intro records
  have hcap : 0 < newEventCapacity requested := by
    unfold newEventCapacity
    omega
  constructor
  · intro h r hr
    obtain ⟨l, event, rfl⟩ := mem_records hr
    exact firstFits_of_delivered event (h _ hr)
  · exact records_deliver hcap cs (fun state hstate => by cases hstate)

/-- A session that is bound again after a release. -/
def sampleRebinding : List ProviderCall :=
  let binding : ProviderObservationBinding :=
    { generation := 1, providerIncarnationRef := ⟨"provider:1"⟩
      targetIncarnationRef := ⟨"target:1"⟩, initialContinuity := .orderingOpaque
      sequenceBaseline := none }
  let batch (seqs : List Nat) : ProviderObserverBatch :=
    { generation := 1, providerIncarnationRef := ⟨"provider:1"⟩
      targetIncarnationRef := ⟨"target:1"⟩
      events := seqs.map fun seq => ⟨seq, 0, .domMutation, none, none, ""⟩ }
  [.bindProviderObservation binding, .ingestProvider (batch [1, 2, 3]),
    .releaseProviderObservation, .bindProviderObservation binding, .ingestProvider (batch [1])]

/-- The first event after the second binding is rejected as stale. -/
theorem rebinding_loses_first_event :
    ∃ r ∈ TrackedSession.records (newEventCapacity 32) sampleRebinding ⟨⟨none, ⟨0, none, []⟩⟩, []⟩,
      r.seen = [] ∧ r.report.accepted = 0 ∧ r.report.rejectedStale = 1 ∧ ¬ r.Delivered := by
  have hlast : ∃ r ∈ TrackedSession.records (newEventCapacity 32) sampleRebinding
      ⟨⟨none, ⟨0, none, []⟩⟩, []⟩, r.seen = [] ∧ r.report.accepted = 0 ∧
        r.report.rejectedStale = 1 := by
    decide +kernel
  obtain ⟨r, hr, hseen, haccepted, hrejected⟩ := hlast
  refine ⟨r, hr, hseen, haccepted, hrejected, fun hdelivered => ?_⟩
  have hmem := hdelivered.2 (by omega)
  rw [hseen] at hmem
  cases hmem

end Localview
