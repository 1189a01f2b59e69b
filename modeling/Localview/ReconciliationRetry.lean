import Localview.EvidenceFreshness

/-! # Retrying a denied reconciliation

An accepted callback of an ordering-opaque stream makes the bridge forget its
reconciliation, and the drain that brought it reconciles at once.  Where that is
denied or fails, the session owes a reconciliation until one is recorded.

Whether a drain reconciles is read off its own callbacks and the continuity they
leave, not off the missing snapshot: while the stream stays opaque, a drain of a
session in debt reconciles exactly where it brings a callback that is accepted, or
whose sequence number restarts or skips.  A gap's debt is another matter: an
adverse continuity stays, and every drain looks at the snapshot then.
-/
namespace Localview
open EarlyReturn StateRun Option

/-- The sequence number restarts or skips. -/
def ProviderContinuityState.jumps (state : ProviderContinuityState) (sequence : Nat) : Bool :=
  state.lastSeq.any fun previous =>
    sequence ≠ previous && (sequence < previous || saturatingSucc previous < sequence)

/-- Some event of the batch jumps or is accepted. -/
def bringsCallback (eventCapacity : Nat) (webBefore : Nat → List ObserverBatch) :
    Nat → List ObserverEvent → ProviderContinuityState → EventBuffer → Bool
  | _, [], _, _ => false
  | i, event :: events, state, buffer =>
      let (report, state', buffer') := ingestProviderEvent eventCapacity state
        (ingestWeb eventCapacity buffer (webBefore i)) event
      state.jumps event.seq || decide (0 < report.accepted) ||
        bringsCallback eventCapacity webBefore (i + 1) events state' buffer'

/-- The runtime with the debt a denied or failed reconciliation leaves. -/
structure RetrySystem where
  system : ObserveSystem
  /-- The last drain accepted a callback of an opaque stream, which left no snapshot. -/
  opaqueDrain : Bool
  /-- Its reconciliation was denied or failed, and none has been recorded since. -/
  debt : Bool

namespace RetrySystem
variable (s : RetrySystem)

def new (sessionId : SessionId) (buffer : EventBuffer) (generation : Nat) : RetrySystem :=
  ⟨.new sessionId buffer generation, false, false⟩

/-- The drain accepts a callback of an opaque stream and leaves no snapshot. -/
def drainsOpaque (eventCapacity : Nat) (e : DrainSurroundings) : Bool :=
  match (s.system.session.drainEvents eventCapacity e).1 with
  | .error _ => false
  | .ok (report, observed) => 0 < report.ingest.accepted && report.continuity = .orderingOpaque &&
      observed.currentSnapshotCompleteness.isNone

/-- A recording, or the end of the observation, settles the debt. -/
def act (eventCapacity : Nat) (a : ObserveAct) : Option RetrySystem :=
  (s.system.act eventCapacity a).map fun system =>
    let settled (settles : Bool) : RetrySystem :=
      if settles = true then ⟨system, false, false⟩ else { s with system }
    match a with
    | .drain e => { s with system, opaqueDrain := s.drainsOpaque eventCapacity e }
    | .reconcile e =>
        if (s.system.session.reconcile e).1.isOk then ⟨system, false, false⟩
        else ⟨system, false, s.debt || s.opaqueDrain⟩
    | .attach e => settled (s.system.session.attach e).1.isOk
    | .publish snapshot receiptId =>
        settled (s.system.session.publishSnapshot snapshot receiptId).1.isOk
    | .release | .releaseObservation => settled true
    | .webBatch _ | .readSemantic _ | .preflight _ | .preflightRead _ | .preflightEnd _ =>
        settled false

/-- The drain goes on to reconcile. -/
def attempts (eventCapacity : Nat) (e : DrainSurroundings) : Bool :=
  match (s.system.session.drainEvents eventCapacity e).1 with
  | .error _ => false
  | .ok (report, observed) => reconciliationNeeded report observed

/-- In debt, an admitted drain reconciles. -/
def Retries (eventCapacity : Nat) (a : ObserveAct) : Prop :=
  ∀ e, a = .drain e → e.admission = .ok () → s.debt = true → s.attempts eventCapacity e = true

/-- In debt, an admitted drain offers a batch to the bridge, and the stream is known
to be adverse or the batch brings a callback. -/
def BringsCallback (eventCapacity : Nat) (a : ObserveAct) : Prop :=
  ∀ e, a = .drain e → e.admission = .ok () → s.debt = true →
    ∃ batch state, s.system.session.drainedBatch e = some batch ∧
      s.system.session.bridge.continuity = some state ∧
      (state.eventContinuity.adverse = true ∨
        bringsCallback eventCapacity e.webBefore 0 batch.events state s.system.session.bridge.buffer =
          true)

end RetrySystem

def RetryStep (eventCapacity : Nat) (s : RetrySystem) (a : ObserveAct) (t : RetrySystem) : Prop :=
  s.act eventCapacity a = some t

/-! ## A batch without a reconciliation -/

section
variable {eventCapacity : Nat} {webBefore : Nat → List ObserverBatch} {events : List ObserverEvent}

variable {state : ProviderContinuityState}

theorem observeSequence_of_opaque (h : state.eventContinuity = .orderingOpaque) (sequence : Nat) :
    if state.jumps sequence then
      (state.observeSequence sequence).eventContinuity.adverse = true
    else (state.observeSequence sequence).eventContinuity = .orderingOpaque := by
  unfold ProviderContinuityState.jumps ProviderContinuityState.observeSequence
  cases state.lastSeq with
  | none => exact h
  | some previous =>
    simp only [any_some, Bool.and_eq_true, Bool.or_eq_true, decide_eq_true_eq]
    by_cases heq : sequence = previous
    · rw [if_neg (fun hjump => hjump.1 heq), if_pos heq]
      exact h
    · by_cases hjump : sequence < previous ∨ saturatingSucc previous < sequence
      · rw [if_pos ⟨heq, hjump⟩, if_neg heq]
        split_ifs with hlt hgap
        · rfl
        · rfl
        · exact absurd hjump (not_or.mpr ⟨hlt, hgap⟩)
      · obtain ⟨hlt, hgap⟩ := not_or.mp hjump
        rw [if_neg (fun hj => hjump hj.2), if_neg heq, if_neg hlt, if_neg hgap]
        exact h

/-- An opaque stream turns adverse where the sequence jumps, and stays opaque else. -/
theorem ingestProviderEvent_of_opaque (eventCapacity : Nat)
    (h : state.eventContinuity = .orderingOpaque) (buffer : EventBuffer) (event : ObserverEvent) :
    let ingested := ingestProviderEvent eventCapacity state buffer event
    if state.jumps event.seq then ingested.2.1.eventContinuity.adverse = true
    else ingested.2.1.eventContinuity = .orderingOpaque := by
  intro ingested
  have hsequence := observeSequence_of_opaque h event.seq
  have hkeep : ingested.2.1.eventContinuity = (state.observeSequence event.seq).eventContinuity := by
    unfold ingested ingestProviderEvent
    dsimp only
    split <;> rfl
  rw [hkeep]
  exact hsequence

theorem accepted_ingestProviderEvents (eventCapacity : Nat) (webBefore : Nat → List ObserverBatch)
    (i : Nat) (events : List ObserverEvent) (state : ProviderContinuityState)
    (buffer : EventBuffer) (accepted rejected : Nat) :
    accepted ≤ (ingestProviderEvents eventCapacity webBefore i events state buffer accepted
      rejected).2.2.1 := by
  induction events generalizing i state buffer accepted rejected with
  | nil => exact le_refl accepted
  | cons event events ih => exact le_trans (Nat.le_add_right _ _) (ih _ _ _ _ _)

/-- A batch that brings no callback leaves an opaque stream opaque and is not
accepted; one that does turns it adverse or is accepted in part. -/
theorem ingestProviderEvents_of_opaqueState (eventCapacity : Nat)
    (webBefore : Nat → List ObserverBatch) (i : Nat) (events : List ObserverEvent)
    (h : state.eventContinuity = .orderingOpaque) (buffer : EventBuffer) (accepted rejected : Nat) :
    let ingested := ingestProviderEvents eventCapacity webBefore i events state buffer accepted rejected
    if bringsCallback eventCapacity webBefore i events state buffer then
      ingested.1.eventContinuity.adverse = true ∨
        ingested.1.eventContinuity = .orderingOpaque ∧ accepted < ingested.2.2.1
    else ingested.1.eventContinuity = .orderingOpaque ∧ ingested.2.2.1 = accepted := by
  induction events generalizing i state buffer accepted rejected with
  | nil => exact ⟨h, rfl⟩
  | cons event events ih =>
    intro ingested
    have hevent := ingestProviderEvent_of_opaque eventCapacity h
      (ingestWeb eventCapacity buffer (webBefore i)) event
    unfold ingested ingestProviderEvents bringsCallback
    dsimp only at hevent ⊢
    generalize ingestProviderEvent eventCapacity state
      (ingestWeb eventCapacity buffer (webBefore i)) event = first at hevent ⊢
    obtain ⟨report, state', buffer'⟩ := first
    dsimp only at hevent ⊢
    by_cases hjump : state.jumps event.seq = true
    · rw [if_pos hjump] at hevent
      rw [if_pos (by rw [hjump]; rfl)]
      exact .inl (adverse_ingestProviderEvents hevent _ _ _)
    · rw [if_neg hjump] at hevent
      have hrest := ih (i + 1) hevent buffer' (accepted + report.accepted)
        (rejected + report.rejectedStale)
      have hmono := accepted_ingestProviderEvents eventCapacity webBefore (i + 1) events state' buffer'
        (accepted + report.accepted) (rejected + report.rejectedStale)
      dsimp only at hrest
      simp only [Bool.eq_false_iff.mpr hjump, Bool.false_or, Bool.or_eq_true, decide_eq_true_eq]
      split_ifs at hrest with hbrings
      · rw [if_pos (.inr hbrings)]
        rcases hrest with hadverse | ⟨hsilent, haccepted⟩
        · exact .inl hadverse
        · exact .inr ⟨hsilent, by omega⟩
      · obtain ⟨hsilent, haccepted⟩ := hrest
        split_ifs with hnow
        · have hfirst : 0 < report.accepted := hnow.resolve_right hbrings
          exact .inr ⟨hsilent, by omega⟩
        · have hnone : ¬ 0 < report.accepted := fun hpos => hnow (.inl hpos)
          exact ⟨hsilent, by omega⟩

end

/-! ## A drain in debt -/

/-- A batch a drain offers is of the lineage the bridge is bound to. -/
theorem restartCause_of_drainedBatch {session : ObserveSession} {e : DrainSurroundings}
    {batch : ProviderObserverBatch} (h : session.drainedBatch e = some batch) :
    ∃ state, session.bridge.continuity = some state ∧ state.restartCause batch = none ∧
      ¬ batch.generation < state.generation := by
  unfold ObserveSession.drainedBatch at h
  split at h
  · next observation drain _ _ _ =>
    split at h
    · next hvalid =>
      cases h
      obtain ⟨u, hdiscard, -⟩ := bind_eq_ok.mp hvalid
      obtain ⟨status', hlive⟩ := discard_eq_ok.mp hdiscard
      unfold WindowsObserveBridgeBinding.requireLiveBinding at hlive
      simp only [okOr_bind_eq_ok, rejectIf_bind_eq_ok, not_not] at hlive
      obtain ⟨status, hstatus, hprovider, htarget, hgeneration, -⟩ := hlive
      obtain ⟨state, hstate, rfl⟩ := map_eq_some_iff.mp hstatus
      refine ⟨state, hstate, ?_, ?_⟩
      · have hprovider' : (observation.binding.providerBatch drain).providerIncarnationRef =
            state.providerIncarnationRef := hprovider.symm
        have htarget' : (observation.binding.providerBatch drain).targetIncarnationRef =
            state.targetIncarnationRef := htarget.symm
        have hgeneration' : (observation.binding.providerBatch drain).generation =
            state.generation := hgeneration.symm
        unfold ProviderContinuityState.restartCause
        rw [if_neg (not_not.mpr hprovider'), if_neg (not_not.mpr htarget'), hgeneration',
          if_neg (lt_irrefl _)]
      · exact not_lt.mpr (le_of_eq hgeneration)
    · cases h
  · cases h

/-- The session is attached, its bridge holds no reconciliation, and the stream is
opaque or adverse. -/
def ObserveSession.Unreconciled (session : ObserveSession) : Prop :=
  session.active.isSome ∧ ∃ state, session.bridge.continuity = some state ∧
    state.reconciliation = none ∧
      (state.eventContinuity = .orderingOpaque ∨ state.eventContinuity.adverse = true)

theorem requires_of_adverse {continuity : EventContinuityState} (h : continuity.adverse = true) :
    requiresReconciliation continuity = true := by
  cases continuity <;> first | rfl | cases h

/-- A drain that gets to the bridge is the loop of `ingest_provider`, from the state
the bridge has; and a session without a reconciliation has none after it. -/
theorem drainEvents_of_drainedBatch (eventCapacity : Nat) {session : ObserveSession}
    {e : DrainSurroundings} {batch : ProviderObserverBatch}
    (hbatch : session.drainedBatch e = some batch) :
    ∃ state, session.bridge.continuity = some state ∧
      let ingested := ingestProviderEvents eventCapacity e.webBefore 0 batch.events state
        session.bridge.buffer 0 0
      session.drainEvents eventCapacity e =
        (.ok (ingested.1.report ingested.2.2.1 ingested.2.2.2, ingested.1.status),
          { session with bridge := ⟨some ingested.1, ingested.2.1⟩ }) := by
  obtain ⟨hnone, -⟩ | ⟨batch', hbatch', observed, hobserved, hdrained⟩ :=
    drainEvents_cases eventCapacity session e
  · rw [hbatch] at hnone
    cases hnone
  · obtain rfl := some.inj (hbatch.symm.trans hbatch')
    obtain ⟨state, hstate, hcause, hgeneration⟩ := restartCause_of_drainedBatch hbatch
    have hingested : ingestProvider eventCapacity session.bridge batch e.webBefore =
        let ingested := ingestProviderEvents eventCapacity e.webBefore 0 batch.events state
          session.bridge.buffer 0 0
        (ingested.1.report ingested.2.2.1 ingested.2.2.2, ⟨some ingested.1, ingested.2.1⟩) := by
      unfold ingestProvider
      rw [hstate, getD_some]
      dsimp only
      rw [hcause]
      dsimp only
      rw [if_neg hgeneration]
    rw [hingested] at hobserved hdrained
    cases hobserved
    exact ⟨state, hstate, hdrained⟩

theorem reconciliation_none_of_ingest (eventCapacity i : Nat) (webBefore : Nat → List ObserverBatch)
    (events : List ObserverEvent) {state : ProviderContinuityState} (buffer : EventBuffer)
    (accepted rejected : Nat) (h : state.reconciliation = none) :
    (ingestProviderEvents eventCapacity webBefore i events state buffer accepted
      rejected).1.reconciliation = none := by
  by_contra hsome
  obtain ⟨receipt, hreceipt⟩ := ne_none_iff_exists'.mp hsome
  have hbefore := (reconciliation_ingestProviderEvents hreceipt).1
  rw [h] at hbefore
  cases hbefore

theorem reconciliationNeeded_iff {report : ProviderIngestReport} {observed : ObservationStatus}
    (h : observed.currentSnapshotCompleteness = none) :
    reconciliationNeeded report observed = true ↔
      (0 < report.ingest.accepted ∧ report.continuity = .orderingOpaque) ∨
        requiresReconciliation report.continuity = true := by
  simp [reconciliationNeeded, h]

/-- **What a drain in debt does.**  It reconciles where it offers a batch, and the
stream is adverse or the batch brings a callback. -/
theorem attempts_iff {eventCapacity : Nat} {s : RetrySystem} {e : DrainSurroundings}
    (h : s.system.session.Unreconciled) :
    s.attempts eventCapacity e = true ↔
      ∃ batch state, s.system.session.drainedBatch e = some batch ∧
        s.system.session.bridge.continuity = some state ∧
        (state.eventContinuity.adverse = true ∨ bringsCallback eventCapacity e.webBefore 0
          batch.events state s.system.session.bridge.buffer = true) := by
  unfold RetrySystem.attempts
  obtain ⟨hnone, error, herror⟩ | ⟨batch, hbatch, observed, hobserved, hdrained⟩ :=
    drainEvents_cases eventCapacity s.system.session e
  · rw [herror, hnone]
    simp
  · obtain ⟨-, state, hstate, hnone, hcontinuity⟩ := h
    obtain ⟨state', hstate', hingest⟩ := drainEvents_of_drainedBatch eventCapacity hbatch
    obtain rfl := some.inj (hstate.symm.trans hstate')
    have hafter := reconciliation_none_of_ingest eventCapacity 0 e.webBefore batch.events
      s.system.session.bridge.buffer 0 0 hnone
    have hneeded : ∀ report, reconciliationNeeded report
        (ingestProviderEvents eventCapacity e.webBefore 0 batch.events state
          s.system.session.bridge.buffer 0 0).1.status = true ↔ _ := fun report =>
      reconciliationNeeded_iff (by rw [ProviderContinuityState.status, hafter]; rfl)
    rw [hingest, hbatch, hstate]
    simp only [some.injEq, exists_and_left, exists_eq_left', hneeded]
    rcases hcontinuity with hsilent | hadverse
    · have hevents := ingestProviderEvents_of_opaqueState eventCapacity e.webBefore 0 batch.events hsilent
        s.system.session.bridge.buffer 0 0
      dsimp only at hevents
      split_ifs at hevents with hbrings
      · refine ⟨fun _ => .inr hbrings, fun _ => ?_⟩
        rcases hevents with hadverse | ⟨hsilent', haccepted⟩
        · exact .inr (requires_of_adverse hadverse)
        · exact .inl ⟨haccepted, hsilent'⟩
      · -- nothing came: the stream is as opaque as before, and no one looks at the snapshot
        obtain ⟨hsilent', haccepted⟩ := hevents
        constructor
        · rintro (⟨hpos, -⟩ | hrequires)
          · exact absurd hpos (not_lt.mpr (le_of_eq haccepted))
          · rw [ProviderContinuityState.report, hsilent'] at hrequires
            cases hrequires
        · rintro (hadverse | hbrings')
          · rw [hsilent] at hadverse
            cases hadverse
          · exact absurd hbrings' hbrings
    · have hadverse' := @adverse_ingestProviderEvents eventCapacity e.webBefore batch.events 0 _
        hadverse s.system.session.bridge.buffer 0 0
      exact ⟨fun _ => .inl hadverse, fun _ => .inr (requires_of_adverse hadverse')⟩

/-! ## The debt along a run -/

/-- What a session in debt is like. -/
def RetrySystem.Indebted (s : RetrySystem) : Prop :=
  s.opaqueDrain = true ∨ s.debt = true → s.system.session.Unreconciled

section
variable {eventCapacity : Nat} {s t : RetrySystem} {a : ObserveAct}

variable {session : ObserveSession}

theorem session_of_recorded {s t : ObserveSystem} {receiptId : String} {success : Bool}
    (h : s.recorded session receiptId success = some t) : t.session = session := by
  unfold ObserveSystem.recorded at h
  split_ifs at h <;> obtain rfl := some.inj h <;> rfl

theorem publishSnapshot_error {snapshot : SemanticSnapshot} {receiptId : String}
    (h : (session.publishSnapshot snapshot receiptId).1.isOk = false) :
    (session.publishSnapshot snapshot receiptId).2 = session := by
  unfold ObserveSession.publishSnapshot at h ⊢
  split
  · rfl
  · next observation hactive =>
    obtain ⟨error, hrefused⟩ | ⟨state, -, hrecorded⟩ := recordSnapshotReconciliation_cases
      observation.binding session.bridge snapshot receiptId
    · rw [hrefused]
    · rw [hactive] at h
      dsimp only at h hrecorded
      rw [hrecorded] at h
      cases h

theorem reconcile_error {e : ReconcileSurroundings} (h : (session.reconcile e).1.isOk = false) :
    (session.reconcile e).2 = session := by
  unfold ObserveSession.reconcile at h ⊢
  split
  · rfl
  · next snapshot hsnapshot =>
    rw [hsnapshot] at h
    exact publishSnapshot_error h

theorem attach_of_active {e : AttachSurroundings} (h : session.active.isSome) :
    (session.attach e).2 = session := by
  unfold ObserveSession.attach
  rw [if_pos h]

/-- A drain neither reconciles nor makes the stream trustworthy. -/
theorem unreconciled_of_drain {e : DrainSurroundings} (h : session.Unreconciled) :
    (session.drainEvents eventCapacity e).2.Unreconciled := by
  obtain ⟨-, error, herror⟩ | ⟨batch, hbatch, -⟩ := drainEvents_cases eventCapacity session e
  · rw [herror]
    exact h
  · obtain ⟨hactive, state, hstate, hnone, hcontinuity⟩ := h
    obtain ⟨state', hstate', hingest⟩ := drainEvents_of_drainedBatch eventCapacity hbatch
    obtain rfl := some.inj (hstate.symm.trans hstate')
    rw [hingest]
    refine ⟨hactive, _, rfl, reconciliation_none_of_ingest _ _ _ _ _ _ _ hnone, ?_⟩
    rcases hcontinuity with hsilent | hadverse
    · have hevents := ingestProviderEvents_of_opaqueState eventCapacity e.webBefore 0 batch.events hsilent
        session.bridge.buffer 0 0
      dsimp only at hevents
      split_ifs at hevents
      · exact hevents.elim .inr fun h => .inl h.1
      · exact .inl hevents.1
    · exact .inr (adverse_ingestProviderEvents hadverse _ _ _)

theorem unreconciled_of_drainsOpaque {e : DrainSurroundings}
    (h : s.drainsOpaque eventCapacity e = true) :
    (s.system.session.drainEvents eventCapacity e).2.Unreconciled := by
  unfold RetrySystem.drainsOpaque at h
  obtain ⟨-, error, herror⟩ | ⟨batch, hbatch, -⟩ :=
    drainEvents_cases eventCapacity s.system.session e
  · rw [herror] at h
    cases h
  · obtain ⟨state, -, hingest⟩ := drainEvents_of_drainedBatch eventCapacity hbatch
    rw [hingest] at h ⊢
    simp only [Bool.and_eq_true, decide_eq_true_eq] at h
    obtain ⟨⟨-, hsilent⟩, hsnapshot⟩ := h
    refine ⟨?_, _, rfl, ?_, .inl hsilent⟩
    · cases hactive : s.system.session.active with
      | none =>
        unfold ObserveSession.drainedBatch at hbatch
        rw [hactive] at hbatch
        cases hbatch
      | some observation => rfl
    · exact map_eq_none_iff.mp (isNone_iff_eq_none.mp hsnapshot)

theorem indebted_step (h : s.Indebted) (hs : RetryStep eventCapacity s a t) : t.Indebted := by
  obtain ⟨system, hsystem, ht⟩ := map_eq_some_iff.mp hs
  cases a with simp only [ObserveSystem.act] at hsystem
  | drain e =>
    subst ht
    have hsession : system.session = (s.system.session.drainEvents eventCapacity e).2 := by
      split_ifs at hsystem
      split at hsystem
      · next hdrained =>
        cases hsystem
        rw [hdrained]
      · next hdrained =>
        cases hsystem
        rw [hdrained]
    intro howes
    dsimp only
    rw [hsession]
    rcases howes with hsilent | hdebt
    · exact unreconciled_of_drainsOpaque hsilent
    · exact unreconciled_of_drain (h (.inr hdebt))
  | reconcile e =>
    split_ifs at hsystem
    have hsession := session_of_recorded hsystem
    dsimp only at ht
    split_ifs at ht with hok
    · subst ht
      exact fun howes => by simp at howes
    · subst ht
      intro howes
      dsimp only
      rw [hsession, reconcile_error (Bool.eq_false_iff.mpr hok)]
      refine h ?_
      simpa [or_comm] using howes
  | attach e =>
    split_ifs at hsystem
    have hsession := session_of_recorded hsystem
    dsimp only at ht
    split_ifs at ht with hok
    · subst ht
      exact fun howes => by simp at howes
    · subst ht
      intro howes
      have hsame := h howes
      dsimp only
      rw [hsession, attach_of_active hsame.1]
      exact hsame
  | publish snapshot receiptId =>
    split_ifs at hsystem
    have hsession := session_of_recorded hsystem
    dsimp only at ht
    split_ifs at ht with hok
    · subst ht
      exact fun howes => by simp at howes
    · subst ht
      intro howes
      dsimp only
      rw [hsession, publishSnapshot_error (Bool.eq_false_iff.mpr hok)]
      exact h howes
  | release | releaseObservation =>
    subst ht
    exact fun howes => by simp at howes
  | webBatch batch =>
    subst ht
    cases hsystem
    exact h
  | readSemantic request =>
    subst ht
    split_ifs at hsystem
    cases hsystem
    exact h
  | preflight request =>
    subst ht
    split at hsystem <;> obtain rfl := some.inj hsystem <;> exact h
  | preflightRead preflight =>
    subst ht
    split_ifs at hsystem
    split at hsystem
    · split at hsystem <;> obtain rfl := some.inj hsystem <;> exact h
    · cases hsystem
  | preflightEnd preflight =>
    subst ht
    split at hsystem
    · cases hsystem
      exact h
    · cases hsystem

theorem retries_iff (h : s.Indebted) (a : ObserveAct) :
    s.Retries eventCapacity a ↔ s.BringsCallback eventCapacity a := by
  constructor
  · intro hretries e ha hadmission hdebt
    exact (attempts_iff (h (.inr hdebt))).mp (hretries e ha hadmission hdebt)
  · intro hbrings e ha hadmission hdebt
    exact (attempts_iff (h (.inr hdebt))).mpr (hbrings e ha hadmission hdebt)

end

/-- **When a denied reconciliation is retried.**  Every admitted drain of a session in
debt reconciles exactly where every one of them gets to the bridge, and either the
stream is already adverse or the drain brings a callback that is accepted or whose
sequence number restarts or skips. -/
theorem debt_retried_iff (eventCapacity : Nat) (sessionId : SessionId) (buffer : EventBuffer)
    (generation : Nat) (tr : List ObserveAct) :
    Along (RetryStep eventCapacity) (fun s a => s.Retries eventCapacity a)
        (.new sessionId buffer generation) tr ↔
      Along (RetryStep eventCapacity) (fun s a => s.BringsCallback eventCapacity a)
        (.new sessionId buffer generation) tr := by
  have hstart : (RetrySystem.new sessionId buffer generation).Indebted := fun howes => by
    rcases howes with howes | howes <;> cases howes
  constructor
  · intro h
    exact Along.of_invariant (I := RetrySystem.Indebted) (fun _ _ _ hs _ hstep => indebted_step hs hstep)
      (fun _ a hs hretries => (retries_iff hs a).mp hretries) h hstart
  · intro h
    exact Along.of_invariant (I := RetrySystem.Indebted) (fun _ _ _ hs _ hstep => indebted_step hs hstep)
      (fun _ a hs hbrings => (retries_iff hs a).mpr hbrings) h hstart

/-- A drain without callbacks. -/
def quietDrain : DrainSurroundings :=
  { admission := .ok (), drained := .ok ⟨[], 0, 1⟩, webBefore := fun _ => [] }

/-- The reconciliation of an accepted callback is denied; the next drain is admitted,
and does not reconcile. -/
theorem denied_reconciliation_not_retried :
    ¬ ∀ (eventCapacity : Nat) (sessionId : SessionId) (buffer : EventBuffer) (generation : Nat)
      (tr : List ObserveAct), Along (RetryStep eventCapacity)
        (fun s a => s.Retries eventCapacity a) (.new sessionId buffer generation) tr := by
  intro hretries
  let denied : List ObserveAct := attachedDrain ++
    [.reconcile ⟨.error ⟨.nativeSemanticReconciliation, ⟨.critical, [], []⟩⟩,
        .ok (buttonSnapshot "cut:2"), 2⟩]
  let start : RetrySystem := .new 7 ⟨0, none, []⟩ 0
  have hrun : ((perform (fun s a => RetrySystem.act s 32 a) start denied).map fun s =>
      (s.debt, s.attempts 32 quietDrain)) = some (true, false) := by decide +kernel
  obtain ⟨s, hs, hend⟩ := map_eq_some_iff.mp hrun
  obtain ⟨hdebt, hquiet⟩ := Prod.mk.inj hend
  have h := hretries 32 7 ⟨0, none, []⟩ 0 (denied ++ [.drain quietDrain]) denied (.drain quietDrain) []
    s rfl (run_of_perform hs) quietDrain rfl rfl hdebt
  rw [hquiet] at h
  cases h

end Localview
