import Localview.ObserveRuntime
import Localview.ProviderDelivery

/-! # Overflow of the provider's event buffer

`WindowsUiaEventBuffer` of `windows-uia-provider/src/event_buffer.rs`, drained into the
bridge: callbacks are numbered and pushed, the oldest goes where there is no room, and
what a drain takes is ingested as one batch, in order and at any later time.

The buffer counts what it drops and the bridge sees the numbers only.  Since the session
is bound at the number the buffer starts from, what is ingested is gapless just when
nothing before it was dropped (`mem_of_lastGap_eq_none`).
-/
namespace Localview
open EarlyReturn StateRun List Bool ProviderContinuityState WindowsObserveBridgeBinding

/-! ## The buffer -/

/-- A callback before it has a sequence. -/
structure WindowsUiaEventDraft where
  kind : WindowsUiaEventKind
  elementRef : Option ProviderElementRef

/-- Why the buffer refuses. -/
inductive WindowsUiaEventBufferError
  | invalidCapacity
  | providerIncarnationMismatch
  | targetIncarnationMismatch

/-- Callbacks waiting to be drained. -/
structure WindowsUiaEventBuffer where
  providerIncarnationRef : ProviderIncarnationRef
  targetIncarnationRef : TargetIncarnationRef
  (capacity latestSequence droppedSinceDrain : Nat)
  events : List WindowsUiaEvent

namespace WindowsUiaEventBuffer

def new (providerIncarnationRef : ProviderIncarnationRef)
    (targetIncarnationRef : TargetIncarnationRef) (capacity : Nat) :
    Except WindowsUiaEventBufferError WindowsUiaEventBuffer :=
  if capacity = 0 then .error .invalidCapacity
  else .ok
    { providerIncarnationRef, targetIncarnationRef, capacity, latestSequence := 0
      droppedSinceDrain := 0, events := [] }

def sequenceBaseline (buffer : WindowsUiaEventBuffer) : Nat := buffer.latestSequence

section
variable (buffer : WindowsUiaEventBuffer) (draft : WindowsUiaEventDraft)

/-- The event that a draft is pushed as. -/
def event (now : Timestamp) :
    WindowsUiaEvent :=
  { sequence := saturatingSucc buffer.latestSequence, capturedAt := now
    providerIncarnationRef := buffer.providerIncarnationRef
    targetIncarnationRef := buffer.targetIncarnationRef, kind := draft.kind
    elementRef := draft.elementRef }

/-- The checks of `push`. -/
def checkDraft : Except WindowsUiaEventBufferError Unit := do
  rejectIf (draft.elementRef.any (fun element =>
    element.providerIncarnationRef ≠ buffer.providerIncarnationRef) = true)
    .providerIncarnationMismatch
  rejectIf (draft.elementRef.any (fun element =>
    element.targetIncarnationRef ≠ buffer.targetIncarnationRef) = true)
    .targetIncarnationMismatch

/-- What `push` does once the draft is checked: the oldest event goes if there is no room. -/
def pushChecked (now : Timestamp) :
    WindowsUiaEventBuffer :=
  let full := decide (buffer.events.length = buffer.capacity)
  { buffer with
    latestSequence := saturatingSucc buffer.latestSequence
    droppedSinceDrain :=
      if full then saturatingSucc buffer.droppedSinceDrain else buffer.droppedSinceDrain
    events := (if full then buffer.events.tail else buffer.events) ++ [buffer.event draft now] }

def push (now : Timestamp) :
    Except WindowsUiaEventBufferError Nat × WindowsUiaEventBuffer :=
  match buffer.checkDraft draft with
  | .error e => (.error e, buffer)
  | .ok () => (.ok (saturatingSucc buffer.latestSequence), buffer.pushChecked draft now)

end

def drain (buffer : WindowsUiaEventBuffer) (limit : Nat) :
    WindowsUiaEventDrain × WindowsUiaEventBuffer :=
  let take := min limit buffer.events.length
  ({ events := buffer.events.take take
     droppedBeforeDrain := buffer.droppedSinceDrain
     latestSequence := buffer.latestSequence },
   { buffer with
     events := buffer.events.drop take
     droppedSinceDrain := 0 })

end WindowsUiaEventBuffer

/-- The last jump in a list of numbers that starts after `previous`. -/
def lastGap : Nat → List Nat → Option EventSequenceGap
  | _, [] => none
  | previous, sequence :: rest =>
      (lastGap sequence rest).or
        (if previous + 1 < sequence then some ⟨previous + 1, sequence⟩ else none)

/-- The number a list ends with, or started after. -/
def lastSequence (previous : Nat) (sequences : List Nat) : Nat :=
  sequences.getLast?.getD previous

theorem lastGap_snoc (previous : Nat) (sequences : List Nat) (n : Nat) :
    lastGap previous (sequences ++ [n]) =
      if lastSequence previous sequences + 1 < n
      then some ⟨lastSequence previous sequences + 1, n⟩ else lastGap previous sequences := by
  induction sequences generalizing previous with
  | nil =>
    simp only [nil_append, lastGap, Option.none_or]
    rfl
  | cons sequence rest ih =>
    have hlast : lastSequence previous (sequence :: rest) = lastSequence sequence rest := by
      cases rest with
      | nil => rfl
      | cons next rest => simp [lastSequence, getLast?_cons]
    rw [cons_append, lastGap, ih, lastGap, hlast]
    split_ifs <;> rfl

/-- Without a jump no number is left out. -/
theorem mem_of_lastGap_eq_none {previous : Nat} {sequences : List Nat}
    (hafter : ∀ n ∈ sequences, previous < n) (hsorted : sequences.Pairwise (· < ·))
    (hgap : lastGap previous sequences = none) {d e : Nat} (he : e ∈ sequences)
    (hd : previous < d) (hle : d ≤ e) : d ∈ sequences := by
  induction sequences generalizing previous with
  | nil => cases he
  | cons sequence rest ih =>
    rw [lastGap, Option.or_eq_none_iff] at hgap
    obtain ⟨hrest, hfirst⟩ := hgap
    have hnext : sequence = previous + 1 := by
      have hlt := hafter sequence mem_cons_self
      split_ifs at hfirst with hjump
      omega
    by_cases hd' : d = sequence
    · rw [hd']
      exact mem_cons_self
    · obtain ⟨hbelow, hsorted⟩ := pairwise_cons.mp hsorted
      refine mem_cons_of_mem _ (ih hbelow hsorted hrest ?_ (by omega))
      obtain rfl | he := mem_cons.mp he
      · omega
      · exact he

/-- A session that has ingested the given numbers, in order, since it was bound. -/
structure Follows (binding : WindowsObserveBridgeBinding) (initial : EventContinuityState)
    (sequences : List Nat) (state : ProviderContinuityState) (buffer : EventBuffer) : Prop where
  provider : state.providerIncarnationRef = binding.providerIncarnationRef
  target : state.targetIncarnationRef = binding.targetIncarnationRef
  generation : state.generation = binding.generation
  legacy : state.legacyGeneration = providerBoundGenerationBase
  last : state.lastSeq = some (lastSequence binding.sequenceBaseline sequences)
  gap : state.gap = lastGap binding.sequenceBaseline sequences
  continuity : state.eventContinuity =
    if (lastGap binding.sequenceBaseline sequences).isSome then .gapDetected else initial
  behind : sequences = [] ∧ buffer.generation < providerBoundGenerationBase ∨
    buffer.generation = providerBoundGenerationBase ∧
      buffer.lastSeq = some (lastSequence binding.sequenceBaseline sequences)

section
variable {binding : WindowsObserveBridgeBinding} {initial : EventContinuityState}
  {sequences : List Nat} {state : ProviderContinuityState} {buffer : EventBuffer}

@[simp] theorem lastSequence_snoc (previous : Nat) (sequences : List Nat) (n : Nat) :
    lastSequence previous (sequences ++ [n]) = n := by
  rw [lastSequence, getLast?_concat]
  rfl

/-- The next number is accepted, and a jump to it is a gap. -/
theorem Follows.event (h : Follows binding initial sequences state buffer) (eventCapacity : Nat)
    {event : ObserverEvent}
    (hafter : lastSequence binding.sequenceBaseline sequences < event.seq)
    (hbound : event.seq ≤ u64Max) :
    ∃ report state' buffer',
      ingestProviderEvent eventCapacity state buffer event = (report, state', buffer') ∧
        report.accepted = 1 ∧ report.rejectedStale = 0 ∧
        Follows binding initial (sequences ++ [event.seq]) state' buffer' := by
  have hsucc : saturatingSucc (lastSequence binding.sequenceBaseline sequences) =
      lastSequence binding.sequenceBaseline sequences + 1 := by
    rw [saturatingSucc]
    exact min_eq_left (hafter.trans_le hbound)
  have hlegacy : (state.observeSequence event.seq).legacyGeneration =
      providerBoundGenerationBase :=
    (legacyGeneration_observeSequence h.last hafter.le).trans h.legacy
  have hfresh : (buffer.advance providerBoundGenerationBase).stale providerBoundGenerationBase
      event = false := by
    rw [stale_advance_iff]
    obtain ⟨-, hnewer⟩ | ⟨hsame, hlast⟩ := h.behind
    · exact .inl hnewer
    · refine .inr ⟨hsame, fun last hlast' => ?_⟩
      rw [hlast, Option.some.injEq] at hlast'
      omega
  have hgen : (buffer.advance providerBoundGenerationBase).generation =
      providerBoundGenerationBase := by
    refine generation_advance ?_
    obtain ⟨-, hnewer⟩ | ⟨hsame, -⟩ := h.behind
    · exact hnewer.le
    · exact hsame.le
  -- what observing the number leaves, up to the reconciliation
  have hobserved : Follows binding initial (sequences ++ [event.seq])
      (state.observeSequence event.seq)
      { buffer.advance providerBoundGenerationBase with
        lastSeq := some event.seq
        events := pushBounded eventCapacity (buffer.advance providerBoundGenerationBase).events
          event } := by
    have hne : event.seq ≠ lastSequence binding.sequenceBaseline sequences := hafter.ne'
    rw [observeSequence, h.last]
    dsimp only
    rw [if_neg hne, if_neg hafter.not_gt, hsucc]
    by_cases hjump : lastSequence binding.sequenceBaseline sequences + 1 < event.seq
    · rw [if_pos hjump]
      refine ⟨h.provider, h.target, h.generation, h.legacy, ?_, ?_, ?_, .inr ⟨hgen, ?_⟩⟩
      · rw [lastSequence_snoc]
      · rw [lastGap_snoc, if_pos hjump]
      · rw [lastGap_snoc, if_pos hjump]
        rfl
      · rw [lastSequence_snoc]
    · rw [if_neg hjump]
      refine ⟨h.provider, h.target, h.generation, h.legacy, ?_, ?_, ?_, .inr ⟨hgen, ?_⟩⟩
      · rw [lastSequence_snoc]
      · rw [lastGap_snoc, if_neg hjump]
        exact h.gap
      · rw [lastGap_snoc, if_neg hjump]
        exact h.continuity
      · rw [lastSequence_snoc]
  simp only [ingestProviderEvent, hlegacy, ingestCollect_single, hfresh, false_eq_true,
    if_false]
  split_ifs with hsilent
  · refine ⟨_, _, _, rfl, rfl, rfl, ?_⟩
    exact ⟨hobserved.provider, hobserved.target, hobserved.generation, rfl, hobserved.last,
      hobserved.gap, hobserved.continuity, hobserved.behind⟩
  · exact ⟨_, _, _, rfl, rfl, rfl, hobserved⟩

/-- So are all the numbers of a batch. -/
theorem Follows.events (h : Follows binding initial sequences state buffer)
    (eventCapacity : Nat) (events : List ObserverEvent)
    (hsorted : (lastSequence binding.sequenceBaseline sequences :: events.map (·.seq)).Pairwise
      (· < ·))
    (hbound : ∀ event ∈ events, event.seq ≤ u64Max) (i accepted rejected : Nat) :
    ∃ state' buffer', ingestProviderEvents eventCapacity (fun _ => []) i events state buffer
        accepted rejected = (state', buffer', accepted + events.length, rejected) ∧
      Follows binding initial (sequences ++ events.map (·.seq)) state' buffer' := by
  induction events generalizing sequences state buffer i accepted with
  | nil => exact ⟨state, buffer, rfl, (append_nil sequences).symm ▸ h⟩
  | cons event events ih =>
    obtain ⟨hafter, hsorted⟩ := pairwise_cons.mp hsorted
    obtain ⟨report, state', buffer', hevent, haccepted, hrejected, hfollows⟩ :=
      h.event eventCapacity (hafter _ mem_cons_self)
        (hbound event mem_cons_self)
    obtain ⟨state'', buffer'', hrest, hfollows'⟩ := ih hfollows
      (by rw [lastSequence_snoc]; exact hsorted)
      (fun later hin => hbound later (mem_cons_of_mem _ hin)) (i + 1) (accepted + 1)
    refine ⟨state'', buffer'', ?_, ?_⟩
    · rw [ingestProviderEvents]
      let ingested := ingestProviderEvent eventCapacity state buffer event
      show ingestProviderEvents eventCapacity (fun _ => []) (i + 1) events ingested.2.1
        ingested.2.2 (accepted + ingested.1.accepted) (rejected + ingested.1.rejectedStale) = _
      rw [show ingested = _ from hevent]
      dsimp only
      rw [haccepted, hrejected, Nat.add_zero rejected, hrest, length_cons, Nat.add_assoc,
        Nat.add_comm 1]
    · rw [map_cons, ← singleton_append, ← append_assoc]
      exact hfollows'

end

/-! ## The buffer and the session -/

/-- A buffer, the session its drains are ingested into, and what has gone through: the events
pushed, the drains, and the reports of those ingested. -/
structure EventPipeline where
  buffer : WindowsUiaEventBuffer
  session : SessionObservation
  pushed : List WindowsUiaEvent
  drains : List WindowsUiaEventDrain
  reports : List ProviderIngestReport

/-- What happens to buffer and session. -/
inductive PipelineCall
  | push (draft : WindowsUiaEventDraft) (now : Timestamp)
  | drain (limit : Nat)
  /-- The first drain that is not ingested yet is. -/
  | ingest

def PipelineCall.isPush : PipelineCall → Bool
  | push _ _ => true
  | drain _ | ingest => false

namespace EventPipeline

/-- Nothing has gone through. -/
def start (buffer : WindowsUiaEventBuffer) (session : SessionObservation) : EventPipeline :=
  { buffer, session, pushed := [], drains := [], reports := [] }

def ingested (s : EventPipeline) : List WindowsUiaEvent :=
  (s.drains.take s.reports.length).flatMap (·.events)

/-- The events drained and not ingested yet. -/
def waiting (s : EventPipeline) : List WindowsUiaEvent :=
  (s.drains.drop s.reports.length).flatMap (·.events)

/-- The events that were not dropped. -/
def kept (s : EventPipeline) : List WindowsUiaEvent :=
  s.drains.flatMap (·.events) ++ s.buffer.events

/-- Run one call. -/
def call (binding : WindowsObserveBridgeBinding) (eventCapacity : Nat) (s : EventPipeline) :
    PipelineCall → EventPipeline
  | .push draft now =>
      match s.buffer.push draft now with
      | (.error _, buffer) => { s with buffer }
      | (.ok _, buffer) => { s with buffer, pushed := s.pushed ++ [s.buffer.event draft now] }
  | .drain limit =>
      let (drain, buffer) := s.buffer.drain limit
      { s with buffer, drains := s.drains ++ [drain] }
  | .ingest =>
      match s.drains[s.reports.length]? with
      | none => s
      | some drain =>
          let (report, session) := ingestProvider eventCapacity s.session
            (binding.providerBatch drain) fun _ => []
          { s with session, reports := s.reports ++ [report] }

end EventPipeline

def PipelineStep (binding : WindowsObserveBridgeBinding) (eventCapacity : Nat) (s : EventPipeline)
    (call : PipelineCall) (s' : EventPipeline) : Prop :=
  s.call binding eventCapacity call = s'

/-- What holds of the buffer and its drains while its numbers do not saturate. -/
structure Conserved (s : EventPipeline) : Prop where
  room : 0 < s.buffer.capacity
  numbered : s.pushed.map (·.sequence) = List.range' 1 s.pushed.length
  latest : s.buffer.latestSequence = s.pushed.length
  kept : s.kept.Sublist s.pushed
  counted : s.pushed.length =
    s.kept.length + (s.drains.map (·.droppedBeforeDrain)).sum + s.buffer.droppedSinceDrain

section
variable {binding : WindowsObserveBridgeBinding} {initial : EventContinuityState}
  {eventCapacity : Nat} {s : EventPipeline}

/-- A push keeps what there is, but for the oldest event of a full buffer. -/
theorem Conserved.pushChecked (h : Conserved s) (hfew : s.pushed.length < u64Max)
    (draft : WindowsUiaEventDraft) (now : Timestamp) :
    Conserved { s with
      buffer := s.buffer.pushChecked draft now
      pushed := s.pushed ++ [s.buffer.event draft now] } := by
  have hlatest : saturatingSucc s.buffer.latestSequence = s.pushed.length + 1 := by
    rw [saturatingSucc, h.latest]
    exact min_eq_left hfew
  have hcounted := h.counted
  refine ⟨h.room, ?_, ?_, ?_, ?_⟩
  · rw [map_append, h.numbered, length_append, length_singleton,
      List.range'_concat, map_singleton, WindowsUiaEventBuffer.event, hlatest, Nat.one_mul,
      Nat.add_comm 1]
  · rw [length_append, length_singleton]
    exact hlatest
  · rw [EventPipeline.kept, WindowsUiaEventBuffer.pushChecked, ← append_assoc]
    refine List.Sublist.append ?_ (List.Sublist.refl _)
    refine List.Sublist.trans ?_ h.kept
    refine List.Sublist.append (List.Sublist.refl _) ?_
    split_ifs
    · exact tail_sublist _
    · exact List.Sublist.refl _
  · have hkept : s.kept.length = (s.drains.flatMap (·.events)).length + s.buffer.events.length :=
      length_append
    have hroom := h.room
    simp only [EventPipeline.kept, WindowsUiaEventBuffer.pushChecked, length_append,
      length_singleton]
    by_cases hfull : s.buffer.events.length = s.buffer.capacity
    · have hdropped : saturatingSucc s.buffer.droppedSinceDrain = s.buffer.droppedSinceDrain + 1 := by
        rw [saturatingSucc]
        exact min_eq_left (by omega)
      simp only [hfull, decide_true, if_true, length_tail, hdropped]
      omega
    · simp only [hfull, decide_false, false_eq_true, if_false]
      omega

/-- A drain takes the front of the buffer, and the count of what was dropped. -/
theorem Conserved.drain (h : Conserved s) (limit : Nat) :
    Conserved { s with
      buffer := (s.buffer.drain limit).2
      drains := s.drains ++ [(s.buffer.drain limit).1] } := by
  have hkept : (s.drains ++ [(s.buffer.drain limit).1]).flatMap (·.events) ++
      (s.buffer.drain limit).2.events = s.kept := by
    rw [flatMap_append, append_assoc, EventPipeline.kept]
    congr 1
    rw [WindowsUiaEventBuffer.drain, flatMap_singleton]
    exact take_append_drop _ _
  refine ⟨h.room, h.numbered, h.latest, ?_, ?_⟩
  · show ((s.drains ++ [(s.buffer.drain limit).1]).flatMap (·.events) ++
      (s.buffer.drain limit).2.events).Sublist s.pushed
    rw [hkept]
    exact h.kept
  · show s.pushed.length = ((s.drains ++ [(s.buffer.drain limit).1]).flatMap (·.events) ++
      (s.buffer.drain limit).2.events).length +
      ((s.drains ++ [(s.buffer.drain limit).1]).map (·.droppedBeforeDrain)).sum + 0
    rw [hkept, map_append, sum_append, map_singleton, sum_singleton]
    have hcounted := h.counted
    show _ = _ + (_ + s.buffer.droppedSinceDrain) + 0
    omega

theorem Conserved.sorted (h : Conserved s) : (s.kept.map (·.sequence)).Pairwise (· < ·) := by
  refine List.Pairwise.sublist (h.kept.map _) ?_
  rw [h.numbered]
  exact pairwise_lt_range'

theorem Conserved.sequence_mem (h : Conserved s) {event : WindowsUiaEvent} (hin : event ∈ s.kept) :
    0 < event.sequence ∧ event.sequence ≤ s.pushed.length := by
  have hnumber : event.sequence ∈ s.pushed.map (·.sequence) :=
    mem_map_of_mem (h.kept.subset hin)
  rw [h.numbered, mem_range'_1] at hnumber
  omega

end

/-- What holds of the session: each report is of a drain, all of which was accepted. -/
structure Delivered (binding : WindowsObserveBridgeBinding) (initial : EventContinuityState)
    (s : EventPipeline) : Prop where
  inOrder : s.reports.length ≤ s.drains.length
  accepted : (s.reports.map fun report => (report.ingest.accepted, report.ingest.rejectedStale)) =
    (s.drains.take s.reports.length).map fun drain => (drain.events.length, 0)
  follows : ∃ state, s.session.continuity = some state ∧
    Follows binding initial (s.ingested.map (·.sequence)) state s.session.buffer

section
variable {binding : WindowsObserveBridgeBinding} {initial : EventContinuityState}
  {s : EventPipeline}

theorem seq_providerBatch (binding : WindowsObserveBridgeBinding) (drain : WindowsUiaEventDrain) :
    (binding.providerBatch drain).events.map (·.seq) = drain.events.map (·.sequence) := by
  refine ext_getElem ?_ fun i _ _ => ?_
  · simp [providerBatch]
  · simp [providerBatch, projectEvent]

/-- A batch of the lineage goes to the loop. -/
theorem Follows.ingestProvider_eq {sequences : List Nat} {state : ProviderContinuityState}
    {session : SessionObservation} (hstate : session.continuity = some state)
    (h : Follows binding initial sequences state session.buffer) (eventCapacity : Nat)
    (drain : WindowsUiaEventDrain) :
    ingestProvider eventCapacity session (binding.providerBatch drain) (fun _ => []) =
      let (state, buffer, accepted, rejectedStale) := ingestProviderEvents eventCapacity
        (fun _ => []) 0 (binding.providerBatch drain).events state session.buffer 0 0
      (state.report accepted rejectedStale, { continuity := some state, buffer }) := by
  have hcause : state.restartCause (binding.providerBatch drain) = none := by
    rw [restartCause, h.provider, h.target, h.generation]
    simp [providerBatch]
  have hgeneration : ¬ (binding.providerBatch drain).generation < state.generation := by
    rw [h.generation]
    exact lt_irrefl _
  rw [ingestProvider, hstate]
  simp only [Option.getD_some, hcause, if_neg hgeneration]

/-- A batch of numbers above the last one is accepted whole. -/
theorem Follows.ingest {sequences : List Nat} {state : ProviderContinuityState}
    {session : SessionObservation} (hstate : session.continuity = some state)
    (h : Follows binding initial sequences state session.buffer) (eventCapacity : Nat)
    (drain : WindowsUiaEventDrain)
    (hsorted : (lastSequence binding.sequenceBaseline sequences ::
      drain.events.map (·.sequence)).Pairwise (· < ·))
    (hbound : ∀ event ∈ drain.events, event.sequence ≤ u64Max) :
    ∃ report session' state', ingestProvider eventCapacity session (binding.providerBatch drain)
        (fun _ => []) = (report, session') ∧
      report.ingest.accepted = drain.events.length ∧ report.ingest.rejectedStale = 0 ∧
      session'.continuity = some state' ∧
      Follows binding initial (sequences ++ drain.events.map (·.sequence)) state'
        session'.buffer := by
  have hlength : (binding.providerBatch drain).events.length = drain.events.length :=
    length_mapIdx
  obtain ⟨state', buffer', hevents, hfollows⟩ := h.events eventCapacity
    (binding.providerBatch drain).events (by rw [seq_providerBatch]; exact hsorted)
    (fun event hin => by
      have hseq : event.seq ∈ drain.events.map (·.sequence) :=
        seq_providerBatch binding drain ▸ mem_map_of_mem hin
      obtain ⟨event', hin', heq⟩ := mem_map.mp hseq
      exact heq ▸ hbound event' hin') 0 0 0
  rw [seq_providerBatch] at hfollows
  refine ⟨state'.report (0 + (binding.providerBatch drain).events.length) 0, ⟨state', buffer'⟩,
    state', ?_, ?_, rfl, rfl, hfollows⟩
  · rw [h.ingestProvider_eq hstate, hevents]
  · show 0 + _ = _
    rw [Nat.zero_add, hlength]

/-- Ingesting the next drain. -/
theorem Delivered.ingest (h : Delivered binding initial s) (hconserved : Conserved s)
    (hbaseline : binding.sequenceBaseline = 0) (hfew : s.pushed.length ≤ u64Max)
    (eventCapacity : Nat) {drain : WindowsUiaEventDrain}
    (hnext : s.drains[s.reports.length]? = some drain) :
    Delivered binding initial
      { s with
        session := (ingestProvider eventCapacity s.session (binding.providerBatch drain)
          fun _ => []).2
        reports := s.reports ++ [(ingestProvider eventCapacity s.session
          (binding.providerBatch drain) fun _ => []).1] } := by
  obtain ⟨hlt, hget⟩ := List.getElem?_eq_some_iff.mp hnext
  have htake : s.drains.take (s.reports.length + 1) = s.drains.take s.reports.length ++ [drain] := by
    rw [List.take_add_one, hnext]
    rfl
  -- what is ingested and what comes next stand at the front of what was kept
  have hfront : (s.ingested ++ drain.events).Sublist s.kept := by
    have hearlier : (s.drains.take (s.reports.length + 1)).flatMap (·.events) =
        s.ingested ++ drain.events := by
      rw [htake, flatMap_append, flatMap_singleton, EventPipeline.ingested]
    rw [← hearlier, EventPipeline.kept]
    exact ((take_sublist _ _).flatMap _).trans (sublist_append_left _ _)
  have hsorted := hconserved.sorted.sublist (hfront.map _)
  rw [map_append, pairwise_append] at hsorted
  obtain ⟨-, hsorted, hafter⟩ := hsorted
  have hmem : ∀ event ∈ drain.events, event ∈ s.kept := fun event hin =>
    hfront.subset (mem_append_right _ hin)
  obtain ⟨state, hstate, hfollows⟩ := h.follows
  have hchain : (lastSequence binding.sequenceBaseline (s.ingested.map (·.sequence)) ::
      drain.events.map (·.sequence)).Pairwise (· < ·) := by
    refine pairwise_cons.mpr ⟨fun n hn => ?_, hsorted⟩
    rw [lastSequence]
    cases hlast : (s.ingested.map (·.sequence)).getLast? with
    | none =>
      obtain ⟨event, hin, rfl⟩ := mem_map.mp hn
      rw [hbaseline]
      exact (hconserved.sequence_mem (hmem event hin)).1
    | some last => exact hafter last (mem_of_getLast? hlast) n hn
  obtain ⟨report, session', state', hingest, haccepted, hrejected, hstate', hfollows'⟩ :=
    hfollows.ingest hstate eventCapacity drain hchain fun event hin =>
      (hconserved.sequence_mem (hmem event hin)).2.trans hfew
  rw [hingest]
  refine ⟨?_, ?_, state', hstate', ?_⟩
  · rw [length_append]
    exact hlt
  · rw [map_append, length_append, length_singleton, htake, map_append,
      h.accepted, map_singleton, map_singleton, haccepted, hrejected]
  · rw [EventPipeline.ingested, length_append, length_singleton, htake,
      flatMap_append, flatMap_singleton, map_append]
    exact hfollows'

end

section
variable {providerIncarnationRef : ProviderIncarnationRef}
  {targetIncarnationRef : TargetIncarnationRef} {capacity eventCapacity : Nat}
  {buffer : WindowsUiaEventBuffer} {binding : WindowsObserveBridgeBinding}
  {initial : EventContinuityState} {session bound : SessionObservation}
  {status : ObservationStatus} {tr : List PipelineCall} {s : EventPipeline}

/-- A new buffer, and a session just bound at its baseline. -/
structure Opening (buffer : WindowsUiaEventBuffer) (binding : WindowsObserveBridgeBinding)
    (initial : EventContinuityState) (bound : SessionObservation) : Prop where
  room : 0 < buffer.capacity
  fresh : buffer.latestSequence = 0 ∧ buffer.droppedSinceDrain = 0 ∧ buffer.events = []
  baseline : binding.sequenceBaseline = 0
  follows : ∃ state, bound.continuity = some state ∧ Follows binding initial [] state bound.buffer

theorem opening_of_bind
    (hnew : WindowsUiaEventBuffer.new providerIncarnationRef targetIncarnationRef capacity =
      .ok buffer)
    (hbaseline : binding.sequenceBaseline = buffer.sequenceBaseline)
    (hbehind : session.buffer.generation < providerBoundGenerationBase)
    (hbind : binding.bind initial session = (.ok status, bound)) :
    Opening buffer binding initial bound := by
  rw [WindowsUiaEventBuffer.new] at hnew
  split_ifs at hnew with hcapacity
  cases hnew
  refine ⟨Nat.pos_of_ne_zero hcapacity, ⟨rfl, rfl, rfl⟩, hbaseline, ?_⟩
  rw [WindowsObserveBridgeBinding.bind, bindProviderObservation] at hbind
  split_ifs at hbind
  · cases (Prod.mk.inj hbind).1
  · cases (Prod.mk.inj hbind).1
  obtain rfl := (Prod.mk.inj hbind).2
  refine ⟨_, rfl, ?_⟩
  exact ⟨rfl, rfl, rfl, rfl, rfl, rfl, (if_neg Bool.false_ne_true).symm, .inl ⟨rfl, hbehind⟩⟩

/-- Each call keeps it, while the numbers do not saturate. -/
theorem conserved_of_run (hopening : Opening buffer binding initial bound)
    (hrun : Run (PipelineStep binding eventCapacity) (.start buffer bound) tr s)
    (hfew : tr.countP PipelineCall.isPush ≤ u64Max) :
    Conserved s ∧ Delivered binding initial s ∧
      s.pushed.length ≤ tr.countP PipelineCall.isPush := by
  refine Run.forward_induction (P := fun tr s => tr.countP PipelineCall.isPush ≤ u64Max →
    Conserved s ∧ Delivered binding initial s ∧
      s.pushed.length ≤ tr.countP PipelineCall.isPush) ?_ ?_ hrun hfew
  · intro _
    obtain ⟨hlatest, hdropped, hevents⟩ := hopening.fresh
    refine ⟨⟨hopening.room, rfl, hlatest, ?_, ?_⟩,
      ⟨Nat.zero_le _, rfl, hopening.follows⟩, Nat.zero_le _⟩
    · rw [EventPipeline.kept]
      exact hevents ▸ List.Sublist.refl _
    · show 0 = ([] ++ buffer.events).length + 0 + buffer.droppedSinceDrain
      rw [hevents, hdropped]
      rfl
  intro tr s call s' _ ih hs hfew
  rw [countP_append, countP_singleton] at hfew ⊢
  obtain ⟨hconserved, hdelivered, hpushed⟩ := ih (by omega)
  rw [PipelineStep] at hs
  subst hs
  cases call with
  | push draft now =>
    simp only [PipelineCall.isPush, if_true] at hfew ⊢
    simp only [EventPipeline.call, WindowsUiaEventBuffer.push]
    cases s.buffer.checkDraft draft with
    | error e => exact ⟨hconserved, hdelivered, hpushed.trans (Nat.le_succ _)⟩
    | ok _ =>
      refine ⟨hconserved.pushChecked (by omega) draft now,
        ⟨hdelivered.inOrder, hdelivered.accepted, hdelivered.follows⟩, ?_⟩
      show (s.pushed ++ [s.buffer.event draft now]).length ≤ _
      rw [length_append, length_singleton]
      omega
  | drain limit =>
    simp only [PipelineCall.isPush, false_eq_true, if_false, Nat.add_zero] at hfew ⊢
    refine ⟨hconserved.drain limit, ⟨?_, ?_, ?_⟩, hpushed⟩
    · show s.reports.length ≤ (s.drains ++ [_]).length
      rw [length_append]
      exact hdelivered.inOrder.trans (Nat.le_add_right _ _)
    · show _ = ((s.drains ++ [_]).take s.reports.length).map _
      rw [take_append_of_le_length hdelivered.inOrder]
      exact hdelivered.accepted
    · obtain ⟨state, hstate, hfollows⟩ := hdelivered.follows
      refine ⟨state, hstate, ?_⟩
      show Follows binding initial (((s.drains ++ [_]).take s.reports.length).flatMap
        WindowsUiaEventDrain.events |>.map WindowsUiaEvent.sequence) state _
      rw [take_append_of_le_length hdelivered.inOrder]
      exact hfollows
  | ingest =>
    simp only [PipelineCall.isPush, false_eq_true, if_false, Nat.add_zero] at hfew ⊢
    cases hnext : s.drains[s.reports.length]? with
    | none =>
      simp only [EventPipeline.call, hnext]
      exact ⟨hconserved, hdelivered, hpushed⟩
    | some drain =>
      simp only [EventPipeline.call, hnext]
      exact ⟨⟨hconserved.room, hconserved.numbered, hconserved.latest, hconserved.kept,
        hconserved.counted⟩, hdelivered.ingest hconserved hopening.baseline
          (hpushed.trans hfew) eventCapacity hnext, hpushed⟩

theorem kept_eq (s : EventPipeline) : s.ingested ++ s.waiting ++ s.buffer.events = s.kept := by
  rw [EventPipeline.ingested, EventPipeline.waiting, ← flatMap_append, take_append_drop,
    EventPipeline.kept]

/-- **Overflow is not silent.**  A session bound for the first time, its buffer before the
generations of providers (`hbehind`), and at the baseline of a new buffer ingests each pushed
event once and in order, unless it was dropped and counted or is still on its way; and once an
event after a dropped one has been ingested the session has a gap, and the last. -/
theorem overflow_detected
    (hnew : WindowsUiaEventBuffer.new providerIncarnationRef targetIncarnationRef capacity =
      .ok buffer)
    (hbaseline : binding.sequenceBaseline = buffer.sequenceBaseline)
    (hbehind : session.buffer.generation < providerBoundGenerationBase)
    (hbind : binding.bind initial session = (.ok status, bound))
    (hrun : Run (PipelineStep binding eventCapacity) (.start buffer bound) tr s)
    (hfew : tr.countP PipelineCall.isPush ≤ u64Max) :
    (s.ingested ++ s.waiting ++ s.buffer.events).Sublist s.pushed ∧
    (s.pushed.map (·.sequence)).Nodup ∧
    s.pushed.length = s.ingested.length + s.waiting.length + s.buffer.events.length +
      (s.drains.map (·.droppedBeforeDrain)).sum + s.buffer.droppedSinceDrain ∧
    (s.reports.map fun report => (report.ingest.accepted, report.ingest.rejectedStale)) =
      ((s.drains.take s.reports.length).map fun drain => (drain.events.length, 0)) ∧
    ∀ dropped ∈ s.pushed, dropped ∉ s.ingested ++ s.waiting ++ s.buffer.events →
      ∀ later ∈ s.ingested, dropped.sequence < later.sequence →
        ∃ status gap, observationStatus s.session = some status ∧
          status.eventContinuity = .gapDetected ∧ status.gap = some gap ∧
          lastGap buffer.sequenceBaseline (s.ingested.map (·.sequence)) = some gap := by
  have hopening := opening_of_bind hnew hbaseline hbehind hbind
  obtain ⟨hconserved, hdelivered, -⟩ := conserved_of_run hopening hrun hfew
  have hnodup : (s.pushed.map (·.sequence)).Nodup := by
    rw [hconserved.numbered]
    exact nodup_range'
  rw [kept_eq]
  refine ⟨hconserved.kept, hnodup, ?_, hdelivered.accepted, ?_⟩
  · have hcounted := hconserved.counted
    rw [← kept_eq, length_append, length_append] at hcounted
    exact hcounted
  intro dropped hin hout later hlater hlt
  obtain ⟨state, hstate, hfollows⟩ := hdelivered.follows
  have hearlier : s.ingested.Sublist s.kept := by
    rw [← kept_eq, append_assoc]
    exact sublist_append_left _ _
  have hpositive (event : WindowsUiaEvent) (hevent : event ∈ s.ingested) : 0 < event.sequence :=
    (hconserved.sequence_mem (hearlier.subset hevent)).1
  have hgap : lastGap 0 (s.ingested.map (·.sequence)) ≠ none := by
    intro hnone
    have hthere : dropped.sequence ∈ s.ingested.map (·.sequence) := by
      refine mem_of_lastGap_eq_none ?_ (hconserved.sorted.sublist (hearlier.map _)) hnone
        (mem_map_of_mem hlater) ?_ hlt.le
      · intro n hn
        obtain ⟨event, hevent, rfl⟩ := mem_map.mp hn
        exact hpositive event hevent
      · have hnumber : dropped.sequence ∈ s.pushed.map (·.sequence) := mem_map_of_mem hin
        rw [hconserved.numbered, mem_range'_1] at hnumber
        exact hnumber.1
    obtain ⟨event, hevent, heq⟩ := mem_map.mp hthere
    have hsame : event = dropped :=
      inj_on_of_nodup_map hnodup (hconserved.kept.subset (hearlier.subset hevent)) hin heq
    exact hout (hearlier.subset (hsame ▸ hevent))
  obtain ⟨gap, hgap⟩ := Option.ne_none_iff_exists'.mp hgap
  refine ⟨state.status, gap, ?_, ?_, ?_, ?_⟩
  · rw [observationStatus, hstate]
    rfl
  · rw [ProviderContinuityState.status, hfollows.continuity, hopening.baseline, hgap]
    rfl
  · rw [ProviderContinuityState.status, hfollows.gap, hopening.baseline, hgap]
  · rw [← hbaseline, hopening.baseline, hgap]

end

/-! ## What goes unnoticed -/

/-- Run calls in order. -/
def EventPipeline.callAll (binding : WindowsObserveBridgeBinding) (eventCapacity : Nat)
    (s : EventPipeline) (tr : List PipelineCall) : EventPipeline :=
  tr.foldl (fun s call => s.call binding eventCapacity call) s

theorem run_callAll (binding : WindowsObserveBridgeBinding) (eventCapacity : Nat)
    (s : EventPipeline) (tr : List PipelineCall) :
    Run (PipelineStep binding eventCapacity) s tr (s.callAll binding eventCapacity tr) := by
  induction tr generalizing s with
  | nil => exact Run.nil s
  | cons call tr ih => exact Run.cons rfl (ih _)

def sampleBinding : WindowsObserveBridgeBinding where
  sessionId := 1
  generation := 1
  providerIncarnationRef := ⟨"uia:1"⟩
  targetIncarnationRef := ⟨"window:1"⟩
  sequenceBaseline := 0

def sampleBuffer : WindowsUiaEventBuffer where
  providerIncarnationRef := ⟨"uia:1"⟩
  targetIncarnationRef := ⟨"window:1"⟩
  capacity := 1
  latestSequence := 0
  droppedSinceDrain := 0
  events := []

def newSession : SessionObservation := ⟨none, ⟨0, none, []⟩⟩

/-- The new session, bound at the buffer's baseline. -/
def boundSession : SessionObservation := (sampleBinding.bind .orderingOpaque newSession).2

def samplePush : PipelineCall := .push ⟨.focusChanged, none⟩ 0

/-- The event that the sample buffer gives a number. -/
def sampleEvent (n : Nat) : WindowsUiaEvent where
  sequence := n
  capturedAt := 0
  providerIncarnationRef := ⟨"uia:1"⟩
  targetIncarnationRef := ⟨"window:1"⟩
  kind := .focusChanged
  elementRef := none

theorem overflow_detected_run :
    ∃ status gap, observationStatus ((EventPipeline.start sampleBuffer boundSession).callAll
        sampleBinding 32 [samplePush, samplePush, .drain 1, .ingest]).session = some status ∧
      status.eventContinuity = .gapDetected ∧ status.gap = some gap ∧
      lastGap 0 [2] = some gap := by
  have hnew : WindowsUiaEventBuffer.new ⟨"uia:1"⟩ ⟨"window:1"⟩ 1 = .ok sampleBuffer := rfl
  have hbind : sampleBinding.bind .orderingOpaque newSession =
      (.ok (fromBinding ⟨1, ⟨"uia:1"⟩, ⟨"window:1"⟩, .orderingOpaque,
        some 0⟩).status, boundSession) := rfl
  have hrun := run_callAll sampleBinding 32 (.start sampleBuffer boundSession)
    [samplePush, samplePush, .drain 1, .ingest]
  refine (overflow_detected hnew rfl (by decide) hbind hrun (by decide)).2.2.2.2
    (sampleEvent 1) ?_ ?_ (sampleEvent 2) ?_ (by decide)
  · exact mem_cons_self
  · show sampleEvent 1 ∉ [sampleEvent 2]
    rw [mem_singleton]
    exact fun heq => absurd (congrArg WindowsUiaEvent.sequence heq) (by decide)
  · exact mem_cons_self

/-- Rounds of one push, one drain and one ingestion: nothing is dropped. -/
structure Rounds (n : Nat) (s : EventPipeline) : Prop where
  lineage : s.buffer.providerIncarnationRef = ⟨"uia:1"⟩ ∧
    s.buffer.targetIncarnationRef = ⟨"window:1"⟩
  room : s.buffer.capacity = 1
  empty : s.buffer.events = []
  quiet : s.buffer.droppedSinceDrain = 0
  pushed : s.pushed.length = n
  drains : s.drains.length = n
  reports : s.reports.length = n
  dropped : (s.drains.map (·.droppedBeforeDrain)).sum = 0

def sampleRound : List PipelineCall := [samplePush, .drain 1, .ingest]

def roundDrain (s : EventPipeline) : WindowsUiaEventDrain :=
  { events := [s.buffer.event ⟨.focusChanged, none⟩ 0], droppedBeforeDrain := 0
    latestSequence := saturatingSucc s.buffer.latestSequence }

/-- What a round leaves. -/
theorem callAll_round {n : Nat} {s : EventPipeline} (h : Rounds n s) :
    s.callAll sampleBinding 32 sampleRound =
      { buffer := { s.buffer with latestSequence := saturatingSucc s.buffer.latestSequence }
        session := (ingestProvider 32 s.session (sampleBinding.providerBatch (roundDrain s))
          fun _ => []).2
        pushed := s.pushed ++ [s.buffer.event ⟨.focusChanged, none⟩ 0]
        drains := s.drains ++ [roundDrain s]
        reports := s.reports ++ [(ingestProvider 32 s.session
          (sampleBinding.providerBatch (roundDrain s)) fun _ => []).1] } := by
  obtain ⟨⟨provider, target, capacity, latest, dropped, events⟩, session, pushed, drains,
    reports⟩ := s
  obtain ⟨-, hroom, hempty, hquiet, -, hdrains, hreports, -⟩ := h
  dsimp only at hroom hempty hquiet hdrains hreports
  subst hroom hempty hquiet
  have hnext (drain : WindowsUiaEventDrain) : (drains ++ [drain])[reports.length]? = some drain := by
    rw [hreports, ← hdrains, getElem?_concat_length]
  show EventPipeline.call sampleBinding 32
    ⟨⟨provider, target, 1, saturatingSucc latest, 0, []⟩, session, pushed ++ [_], drains ++ [_],
      reports⟩ .ingest = _
  simp only [EventPipeline.call, hnext]
  rfl

/-- Each round keeps it. -/
theorem Rounds.next {n : Nat} {s : EventPipeline} (h : Rounds n s) :
    Rounds (n + 1) (s.callAll sampleBinding 32 sampleRound) := by
  rw [callAll_round h]
  refine ⟨h.lineage, h.room, h.empty, h.quiet, ?_, ?_, ?_, ?_⟩
  · rw [length_append, h.pushed, length_singleton]
  · rw [length_append, h.drains, length_singleton]
  · rw [length_append, h.reports, length_singleton]
  · rw [map_append, sum_append, h.dropped]
    rfl

/-- As many rounds as one likes. -/
theorem exists_rounds (n : Nat) :
    ∃ tr s, Run (PipelineStep sampleBinding 32) (.start sampleBuffer boundSession) tr s ∧
      tr.countP PipelineCall.isPush = n ∧ Rounds n s := by
  induction n with
  | zero =>
    exact ⟨[], _, Run.nil _, rfl, ⟨rfl, rfl⟩, rfl, rfl, rfl, rfl, rfl, rfl, rfl⟩
  | succ n ih =>
    obtain ⟨tr, s, hrun, hcount, hrounds⟩ := ih
    refine ⟨tr ++ sampleRound, _, Run.append_iff.mpr ⟨s, hrun, run_callAll _ _ _ _⟩, ?_,
      hrounds.next⟩
    rw [countP_append, hcount]
    rfl

/-- A number that is the last one again is not accepted. -/
theorem Follows.stale {binding : WindowsObserveBridgeBinding} {initial : EventContinuityState}
    {sequences : List Nat} {state : ProviderContinuityState} {buffer : EventBuffer}
    (h : Follows binding initial sequences state buffer) (hsome : sequences ≠ [])
    (eventCapacity : Nat) (event : ObserverEvent)
    (hsame : event.seq = lastSequence binding.sequenceBaseline sequences) :
    (ingestProviderEvent eventCapacity state buffer event).1.accepted = 0 := by
  obtain ⟨hnone, -⟩ | ⟨hgeneration, hlast⟩ := h.behind
  · exact absurd hnone hsome
  have hstate : state.observeSequence event.seq = state := by
    rw [observeSequence, h.last, hsame]
    exact if_pos rfl
  have hstale : (buffer.advance state.legacyGeneration).stale state.legacyGeneration event =
      true := by
    refine eq_true_of_not_eq_false fun hfresh => ?_
    rw [stale_advance_iff, h.legacy] at hfresh
    obtain hnewer | ⟨-, hbelow⟩ := hfresh
    · omega
    · exact absurd (hbelow _ hlast) (by omega)
  simp only [ingestProviderEvent, hstate, ingestCollect_single, hstale, if_true]
  split_ifs <;> rfl

/-- Rounds that take all the numbers: the next event repeats the last, and nobody counts it. -/
theorem Rounds.repeats {n : Nat} (hpositive : 0 < n) (hlast : saturatingSucc n = n)
    {s : EventPipeline} (h : Rounds n s) (hconserved : Conserved s)
    (hdelivered : Delivered sampleBinding .orderingOpaque s) :
    (ingestProvider 32 s.session (sampleBinding.providerBatch (roundDrain s))
      fun _ => []).1.ingest.accepted = 0 := by
  have hkept : s.kept = s.ingested := by
    have hwaiting : s.waiting = [] := by
      rw [EventPipeline.waiting, h.reports, ← h.drains, drop_length]
      rfl
    rw [← kept_eq, hwaiting, h.empty, append_nil, append_nil]
  have hingested : s.ingested = s.pushed := by
    have hcounted := hconserved.counted
    rw [h.dropped, h.quiet, hkept] at hcounted
    exact (hkept ▸ hconserved.kept).eq_of_length hcounted.symm
  have hsequence : lastSequence sampleBinding.sequenceBaseline (s.ingested.map (·.sequence)) =
      n := by
    obtain ⟨m, rfl⟩ := Nat.exists_eq_add_of_lt hpositive
    rw [hingested, hconserved.numbered, h.pushed, Nat.zero_add, List.range'_concat,
      lastSequence_snoc]
    omega
  obtain ⟨state, hstate, hfollows⟩ := hdelivered.follows
  rw [hfollows.ingestProvider_eq hstate]
  have hstale := hfollows.stale (fun hnil => ?_) 32
    (projectEvent (s.buffer.event ⟨.focusChanged, none⟩ 0) true 0) ?_
  · show 0 + (ingestProviderEvent 32 state s.session.buffer _).1.accepted = 0
    rw [Nat.zero_add]
    exact hstale
  · have hlength := congrArg List.length hnil
    rw [hingested, length_map, h.pushed, length_nil] at hlength
    omega
  · rw [hsequence]
    show saturatingSucc s.buffer.latestSequence = n
    rw [hconserved.latest, h.pushed, hlast]

/-- Without a baseline what is dropped first goes unnoticed, and so does an event once the
numbers are used up. -/
theorem overflow_missed :
    (∃ status, observationStatus ((EventPipeline.start sampleBuffer newSession).callAll
        sampleBinding 32 [samplePush, samplePush, .drain 1, .ingest]).session = some status ∧
      status.eventContinuity = .continuous ∧ status.lastSeq = some 2) ∧
    ∃ tr s, Run (PipelineStep sampleBinding 32) (.start sampleBuffer boundSession) tr s ∧
      s.waiting = [] ∧ s.buffer.events = [] ∧ (s.drains.map (·.droppedBeforeDrain)).sum = 0 ∧
      s.buffer.droppedSinceDrain = 0 ∧
      (s.reports.map (·.ingest.accepted)).sum < s.pushed.length := by
  refine ⟨⟨_, rfl, rfl, rfl⟩, ?_⟩
  obtain ⟨tr, s, hrun, hcount, hrounds⟩ := exists_rounds u64Max
  have hnew : WindowsUiaEventBuffer.new ⟨"uia:1"⟩ ⟨"window:1"⟩ 1 = .ok sampleBuffer := rfl
  have hbind : sampleBinding.bind .orderingOpaque newSession =
      (.ok (fromBinding ⟨1, ⟨"uia:1"⟩, ⟨"window:1"⟩, .orderingOpaque,
        some 0⟩).status, boundSession) := rfl
  obtain ⟨hconserved, hdelivered, -⟩ := conserved_of_run
    (opening_of_bind hnew rfl (by decide) hbind) hrun hcount.le
  have hrepeats := hrounds.repeats (by decide) (by decide) hconserved hdelivered
  have hnext := hrounds.next
  refine ⟨tr ++ sampleRound, _, Run.append_iff.mpr ⟨s, hrun, run_callAll _ _ _ _⟩, ?_, hnext.empty,
    hnext.dropped, hnext.quiet, ?_⟩
  · rw [EventPipeline.waiting, hnext.reports, ← hnext.drains, drop_length]
    rfl
  · have haccepted : (s.reports.map (·.ingest.accepted)).sum ≤ s.pushed.length := by
      have hsum := congrArg (fun counts => (counts.map Prod.fst).sum) hdelivered.accepted
      simp only [map_map] at hsum
      calc (s.reports.map (·.ingest.accepted)).sum
          = s.ingested.length := by
            rw [EventPipeline.ingested, length_flatMap]
            exact hsum
        _ ≤ s.kept.length := by
            rw [← kept_eq, append_assoc, length_append]
            exact Nat.le_add_right _ _
        _ ≤ s.pushed.length := hconserved.kept.length_le
    rw [hnext.pushed, callAll_round hrounds, map_append, sum_append, map_singleton,
      sum_singleton, hrepeats, Nat.add_zero]
    rw [hrounds.pushed] at haccepted
    exact Nat.lt_succ_of_le haccepted

end Localview
