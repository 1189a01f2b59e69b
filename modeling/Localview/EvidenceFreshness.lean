import Localview.ContinuityDebt
import Localview.ObserveRuntime

/-! # Fresh evidence

Drains, reconciliations, reads and preflights of a Windows session as they
interleave.  A drain holds the operation gate from its callbacks to the end of its
reconciliation; a preflight samples the observation status with no gate, reads under
it, and samples the status again.

`accepted` counts the callbacks `ingest_provider` has accepted, and `recordedAt` is
that count when the current snapshot was recorded: evidence is fresh where the two
agree.  The bridge forgets its reconciliation at an accepted callback of an opaque
stream, but neither the preflight's gate nor the read asks for it.

While status and snapshot are read only with a reconciliation at hand, and every
drain that accepts callbacks makes the bridge forget it, evidence is fresh: a receipt
id names one recording, and the preflight compares the ids on both sides of its read.
-/
namespace Localview
open EarlyReturn StateRun List Option

/-- A preflight in progress: after its first status, and after its read. -/
inductive PreflightStage
  | checked (request : WindowsUiaActionPreflightRequest) (statusBefore : ObservationStatus)
  | read (request : WindowsUiaActionPreflightRequest) (statusBefore : ObservationStatus)
      (read : WindowsSemanticReadReceipt) (recordedAt : Nat)

/-- A session, and the preflights in progress. -/
structure ObserveSystem where
  session : ObserveSession
  /-- A drain is about to reconcile, holding the gate. -/
  reconciling : Bool
  preflights : List PreflightStage
  /-- The receipt ids recorded so far. -/
  receiptIds : List String
  (accepted recordedAt : Nat)

/-- One call of the observe runtime, or a stage of one. -/
inductive ObserveAct
  | attach (surroundings : AttachSurroundings)
  | drain (surroundings : DrainSurroundings)
  | reconcile (surroundings : ReconcileSurroundings)
  /-- A snapshot published by a refresh or a postcondition capture. -/
  | publish (snapshot : SemanticSnapshot) (receiptId : String)
  | release
  /-- Calls of the bridge: a web batch, and the end of the observation. -/
  | webBatch (batch : ObserverBatch)
  | releaseObservation
  | readSemantic (request : WindowsSemanticReadRequest)
  | preflight (request : WindowsUiaActionPreflightRequest)
  | preflightRead (preflight : Nat)
  | preflightEnd (preflight : Nat)

def SessionObservation.receiptId (bridge : SessionObservation) : Option String :=
  bridge.continuity.bind fun state => state.reconciliation.map (·.receiptId)

namespace ObserveSystem
variable (s : ObserveSystem)

/-- A session that is not attached. -/
def new (sessionId : SessionId) (buffer : EventBuffer) (generation : Nat) : ObserveSystem :=
  { session := { sessionId, bridge := ⟨none, buffer⟩, active := none, generation }
    reconciling := false
    preflights := []
    receiptIds := []
    accepted := 0
    recordedAt := 0 }

/-- The session after a call that records a snapshot under a new id, if it does. -/
def recorded (session : ObserveSession) (receiptId : String) (success : Bool) :
    Option ObserveSystem :=
  if receiptId ∈ s.receiptIds then none
  else if success then
    some { s with session, receiptIds := receiptId :: s.receiptIds, recordedAt := s.accepted }
  else some { s with session }

def attachReceiptId (e : AttachSurroundings) : String :=
  "reconcile:windows-uia:initial:" ++ s.session.sessionId.display ++ ":" ++
    toString (saturatingSucc s.session.generation) ++ ":" ++ e.receiptUuid.display

/-- One hold of the gate, or one status. -/
def act (eventCapacity : Nat) : ObserveAct → Option ObserveSystem
  | .attach e =>
      if s.reconciling then none
      else s.recorded (s.session.attach e).2 (s.attachReceiptId e) (s.session.attach e).1.isOk
  | .drain e =>
      if s.reconciling then none
      else match s.session.drainEvents eventCapacity e with
        | (.error _, session) => some { s with session }
        | (.ok (report, observed), session) =>
            some { s with
              session
              reconciling := reconciliationNeeded report observed
              accepted := s.accepted + report.ingest.accepted }
  | .reconcile e =>
      if s.reconciling = false then none
      else { s with reconciling := false }.recorded (s.session.reconcile e).2
        (s.session.reconciliationReceiptId e.receiptUuid) (s.session.reconcile e).1.isOk
  | .publish snapshot receiptId =>
      if s.reconciling then none
      else s.recorded (s.session.publishSnapshot snapshot receiptId).2 receiptId
        (s.session.publishSnapshot snapshot receiptId).1.isOk
  | .release =>
      if s.reconciling = true then none else some { s with session := s.session.release.2 }
  | .webBatch batch =>
      some { s with session := { s.session with
        bridge := s.session.bridge.call eventCapacity (.ingestCollect batch) } }
  | .releaseObservation =>
      some { s with session := { s.session with
        bridge := s.session.bridge.call eventCapacity .releaseProviderObservation } }
  | .readSemantic _ => if s.reconciling then none else some s
  | .preflight request =>
      match s.session.preflightStatus with
      | .error _ => some s
      | .ok statusBefore => some { s with preflights := s.preflights ++ [.checked request statusBefore] }
  | .preflightRead preflight =>
      if s.reconciling then none
      else match s.preflights[preflight]? with
        | some (.checked request statusBefore) =>
            match s.session.preflightRead request with
            | .error _ => some { s with preflights := s.preflights.eraseIdx preflight }
            | .ok read => some { s with
                preflights := s.preflights.set preflight
                  (.read request statusBefore read s.recordedAt) }
        | _ => none
  | .preflightEnd preflight =>
      match s.preflights[preflight]? with
      | some (.read ..) => some { s with preflights := s.preflights.eraseIdx preflight }
      | _ => none

/-- For an act that ends a read or a preflight with success: when the snapshot it
used was recorded. -/
def evidence : ObserveAct → Option Nat
  | .readSemantic request => if (s.session.readSemantic request).isOk then some s.recordedAt else none
  | .preflightEnd preflight =>
      match s.preflights[preflight]? with
      | some (.read request statusBefore read recordedAt) =>
          if (s.session.preflightReceipt request statusBefore read).isOk then some recordedAt
          else none
      | _ => none
  | _ => none

/-- Evidence comes from a snapshot recorded after the last accepted callback. -/
def EvidenceFresh (a : ObserveAct) : Prop := ∀ recordedAt, s.evidence a = some recordedAt →
  recordedAt = s.accepted

/-- Callbacks a drain accepts leave a note of the stream, and a session that is read,
or whose status the preflight's gate lets pass, has a reconciliation at hand. -/
def reconciledFirst (eventCapacity : Nat) : ObserveAct → Bool
  | .drain e => (s.session.drainedBatch e).all fun batch =>
      s.session.bridge.notesOfCall eventCapacity (.ingestProvider batch e.webBefore) ≠ [] ||
        (ingestProvider eventCapacity s.session.bridge batch e.webBefore).1.ingest.accepted = 0
  | .readSemantic _ => s.session.active.isNone || s.session.bridge.receiptId.isSome
  | .preflight _ => s.session.status.all fun status =>
      requiresReconciliation status.eventContinuity || s.session.bridge.receiptId.isSome
  | _ => true

end ObserveSystem

def ObserveSystemStep (eventCapacity : Nat) (s : ObserveSystem) (a : ObserveAct)
    (t : ObserveSystem) : Prop :=
  s.act eventCapacity a = some t

/-- A batch leaves the receipt alone, and no note, or the bridge forgets it. -/
theorem receiptId_ingestProvider (eventCapacity : Nat) (bridge : SessionObservation)
    (batch : ProviderObserverBatch) (webBefore : Nat → List ObserverBatch) :
    (ingestProvider eventCapacity bridge batch webBefore).2.receiptId = none ∨
      (ingestProvider eventCapacity bridge batch webBefore).2.receiptId = bridge.receiptId ∧
        bridge.notesOfCall eventCapacity (.ingestProvider batch webBefore) = [] := by
  obtain ⟨state', hstate'⟩ := continuity_ingestProvider eventCapacity bridge batch webBefore
  unfold SessionObservation.receiptId
  rw [hstate', bind_some]
  cases hreceipt : state'.reconciliation with
  | none => exact .inl rfl
  | some receipt =>
    obtain ⟨⟨state, hstate, hbefore⟩, hnotes⟩ := reconciliation_ingestProvider hstate' hreceipt
    right
    rw [hstate, bind_some, hbefore]
    exact ⟨rfl, hnotes⟩

theorem receiptId_bind (binding : WindowsObserveBridgeBinding) (bridge : SessionObservation)
    (initial : EventContinuityState) : (binding.bind initial bridge).2.receiptId = bridge.receiptId := by
  unfold WindowsObserveBridgeBinding.bind bindProviderObservation
  dsimp only
  split_ifs with hinitial hbound
  · rfl
  · rfl
  · -- a new binding has no receipt, and there was none to lose
    have hnone : bridge.continuity = none := by simpa using hbound
    unfold SessionObservation.receiptId
    rw [hnone]
    rfl

theorem receiptId_recordSnapshotReconciliation (binding : WindowsObserveBridgeBinding)
    (bridge : SessionObservation) (snapshot : SemanticSnapshot) (receiptId : String) :
    (∃ error, binding.recordSnapshotReconciliation bridge snapshot receiptId =
      (.error error, bridge)) ∨
    ∃ status after, binding.recordSnapshotReconciliation bridge snapshot receiptId =
      (.ok status, after) ∧ after.receiptId = some receiptId := by
  obtain hrefused | ⟨state, -, hrecorded⟩ :=
    recordSnapshotReconciliation_cases binding bridge snapshot receiptId
  · exact .inl hrefused
  · exact .inr ⟨_, _, hrecorded, rfl⟩

/-! ## What a step does to the evidence -/

/-- What an act does to the evidence: nothing is recorded or accepted, a snapshot is
recorded under a new id, or callbacks are accepted and the bridge has no receipt left. -/
inductive ObserveEffect (s t : ObserveSystem) : Prop
  | kept (receiptId : t.session.bridge.receiptId = s.session.bridge.receiptId ∨
        t.session.bridge.receiptId = none)
      (active : t.session.active.isSome → s.session.active.isSome)
      (receiptIds : t.receiptIds = s.receiptIds) (accepted : t.accepted = s.accepted)
      (recordedAt : t.recordedAt = s.recordedAt)
  | recorded (id : String) (fresh : id ∉ s.receiptIds)
      (receiptId : t.session.bridge.receiptId = some id)
      (receiptIds : t.receiptIds = id :: s.receiptIds) (accepted : t.accepted = s.accepted)
      (recordedAt : t.recordedAt = s.accepted)
  | accepted (receiptId : t.session.bridge.receiptId = none) (receiptIds : t.receiptIds = s.receiptIds)

section
variable {eventCapacity : Nat} {s t : ObserveSystem} {a : ObserveAct}

theorem ObserveEffect.refl (s : ObserveSystem) : ObserveEffect s s :=
  .kept (.inl rfl) id rfl rfl rfl

/-- A call that records a snapshot under `receiptId` when it succeeds. -/
theorem ObserveEffect.of_recorded {session : ObserveSession} {receiptId : String} {success : Bool}
    (hok : success = true → session.bridge.receiptId = some receiptId)
    (herror : success = false → (session.bridge.receiptId = s.session.bridge.receiptId ∨
      session.bridge.receiptId = none) ∧ session.active = s.session.active)
    (h : s.recorded session receiptId success = some t) :
    ObserveEffect s t ∧ t.preflights = s.preflights := by
  unfold ObserveSystem.recorded at h
  split_ifs at h with hknown hsuccess
  · cases h
    exact ⟨.recorded receiptId hknown (hok hsuccess) rfl rfl rfl, rfl⟩
  · cases h
    obtain ⟨hreceipt, hactive⟩ := herror (Bool.eq_false_iff.mpr hsuccess)
    refine ⟨.kept hreceipt (fun h => ?_) rfl rfl rfl, rfl⟩
    rw [← hactive]
    exact h

theorem publishSnapshot_effect (session : ObserveSession) (snapshot : SemanticSnapshot)
    (receiptId : String) :
    let published := session.publishSnapshot snapshot receiptId
    (published.1.isOk → published.2.bridge.receiptId = some receiptId) ∧
      (published.1.isOk = false → (published.2.bridge.receiptId = session.bridge.receiptId ∨
        published.2.bridge.receiptId = none) ∧ published.2.active = session.active) := by
  intro published
  unfold published ObserveSession.publishSnapshot
  split
  · exact ⟨fun h => Bool.noConfusion h, fun _ => ⟨.inl rfl, rfl⟩⟩
  · next observation _ =>
    obtain ⟨error, hrefused⟩ | ⟨status, bridge, hrecorded, hreceipt⟩ :=
      receiptId_recordSnapshotReconciliation observation.binding session.bridge snapshot receiptId
    · rw [hrefused]
      exact ⟨fun h => Bool.noConfusion h, fun _ => ⟨.inl rfl, rfl⟩⟩
    · rw [hrecorded]
      exact ⟨fun _ => hreceipt, fun h => Bool.noConfusion h⟩

theorem reconcile_effect (session : ObserveSession) (e : ReconcileSurroundings) :
    let reconciled := session.reconcile e
    (reconciled.1.isOk →
      reconciled.2.bridge.receiptId = some (session.reconciliationReceiptId e.receiptUuid)) ∧
      (reconciled.1.isOk = false → (reconciled.2.bridge.receiptId = session.bridge.receiptId ∨
        reconciled.2.bridge.receiptId = none) ∧ reconciled.2.active = session.active) := by
  intro reconciled
  unfold reconciled ObserveSession.reconcile
  split
  · exact ⟨fun h => Bool.noConfusion h, fun _ => ⟨.inl rfl, rfl⟩⟩
  · next snapshot _ =>
    exact publishSnapshot_effect session snapshot (session.reconciliationReceiptId e.receiptUuid)

theorem attach_effect (s : ObserveSystem) (e : AttachSurroundings) :
    let attached := s.session.attach e
    (attached.1.isOk → attached.2.bridge.receiptId = some (s.attachReceiptId e)) ∧
      (attached.1.isOk = false → (attached.2.bridge.receiptId = s.session.bridge.receiptId ∨
        attached.2.bridge.receiptId = none) ∧ attached.2.active = s.session.active) := by
  intro attached
  unfold attached ObserveSession.attach
  split
  · exact ⟨fun h => Bool.noConfusion h, fun _ => ⟨.inl rfl, rfl⟩⟩
  · split
    · exact ⟨fun h => Bool.noConfusion h, fun _ => ⟨.inl rfl, rfl⟩⟩
    · next lineage snapshot _ =>
      dsimp only
      have hbind := receiptId_bind
        { sessionId := s.session.sessionId, generation := saturatingSucc s.session.generation
          providerIncarnationRef := e.providerIncarnationRef
          targetIncarnationRef := e.targetIncarnationRef
          sequenceBaseline := lineage.sequenceBaseline } s.session.bridge e.initialContinuity
      split
      · next bridge hbound =>
        rw [hbound] at hbind
        exact ⟨fun h => Bool.noConfusion h, fun _ => ⟨.inl hbind, rfl⟩⟩
      · next bridge hbound =>
        obtain ⟨error, hrefused⟩ | ⟨status, after, hrecorded, hreceipt⟩ :=
          receiptId_recordSnapshotReconciliation
            { sessionId := s.session.sessionId, generation := saturatingSucc s.session.generation
              providerIncarnationRef := e.providerIncarnationRef
              targetIncarnationRef := e.targetIncarnationRef
              sequenceBaseline := lineage.sequenceBaseline } bridge snapshot (s.attachReceiptId e)
        · unfold ObserveSystem.attachReceiptId at hrefused
          rw [hrefused]
          exact ⟨fun h => Bool.noConfusion h, fun _ => ⟨.inr rfl, rfl⟩⟩
        · unfold ObserveSystem.attachReceiptId at hrecorded
          rw [hrecorded]
          exact ⟨fun _ => hreceipt, fun h => Bool.noConfusion h⟩

theorem drain_effect {e : DrainSurroundings} (hs : ObserveSystemStep eventCapacity s (.drain e) t)
    (hcond : s.reconciledFirst eventCapacity (.drain e) = true) :
    ObserveEffect s t ∧ t.preflights = s.preflights := by
  unfold ObserveSystemStep at hs
  simp only [ObserveSystem.act] at hs
  obtain ⟨-, error, herror⟩ | ⟨batch, hbatch, observed, -, hdrained⟩ :=
    drainEvents_cases eventCapacity s.session e
  · rw [herror] at hs
    split at hs
    · cases hs
    · cases hs
      exact ⟨.refl s, rfl⟩
  · rw [hdrained] at hs
    split at hs
    · cases hs
    · cases hs
      obtain hnone | ⟨hsame, hnotes⟩ :=
        receiptId_ingestProvider eventCapacity s.session.bridge batch e.webBefore
      · exact ⟨.accepted hnone rfl, rfl⟩
      · -- no note: nothing was accepted
        have hzero : (ingestProvider eventCapacity s.session.bridge batch
            e.webBefore).1.ingest.accepted = 0 := by
          simpa [ObserveSystem.reconciledFirst, hbatch, hnotes] using hcond
        exact ⟨.kept (.inl hsame) id rfl (by dsimp only; omega) rfl, rfl⟩

end

/-! ## The invariant -/

/-- A status a preflight has sampled names a recorded receipt; and while that is still
the bridge's, what was read after it is fresh. -/
def ObserveSystem.StageFresh (s : ObserveSystem) : PreflightStage → Prop
  | .checked _ statusBefore => ∃ id ∈ s.receiptIds, statusBefore.reconciliationReceiptId = some id
  | .read _ statusBefore _ recordedAt => ∃ id ∈ s.receiptIds,
      statusBefore.reconciliationReceiptId = some id ∧
        (s.session.bridge.receiptId = some id → recordedAt = s.accepted)

/-- The snapshot in use is a current one. -/
structure ObserveSystem.Fresh (s : ObserveSystem) : Prop where
  known : ∀ id, s.session.bridge.receiptId = some id → id ∈ s.receiptIds
  current : s.session.active.isSome → s.session.bridge.receiptId.isSome →
    s.recordedAt = s.accepted
  preflights : ∀ stage ∈ s.preflights, s.StageFresh stage

section
variable {eventCapacity : Nat} {s t : ObserveSystem} {a : ObserveAct}

theorem stageFresh_of_effect {stage : PreflightStage} (he : ObserveEffect s t)
    (h : s.StageFresh stage) : t.StageFresh stage := by
  -- no effect makes an old id current: it keeps it, drops it or records a new one
  have hcurrent : ∀ id ∈ s.receiptIds, ∀ recordedAt : Nat,
      (s.session.bridge.receiptId = some id → recordedAt = s.accepted) →
      id ∈ t.receiptIds ∧ (t.session.bridge.receiptId = some id → recordedAt = t.accepted) := by
    intro id hid recordedAt hfresh
    cases he with
    | kept hreceipt hactive hids haccepted hrecorded =>
      rw [hids, haccepted]
      refine ⟨hid, fun hnow => ?_⟩
      obtain hsame | hnone := hreceipt
      · exact hfresh (hsame ▸ hnow)
      · rw [hnone] at hnow
        cases hnow
    | recorded new hnew hreceipt hids haccepted hrecorded =>
      rw [hids]
      refine ⟨mem_cons_of_mem _ hid, fun hnow => ?_⟩
      obtain rfl := some.inj (hreceipt.symm.trans hnow)
      exact absurd hid hnew
    | accepted hreceipt hids =>
      rw [hids]
      refine ⟨hid, fun hnow => ?_⟩
      rw [hreceipt] at hnow
      cases hnow
  cases stage with
  | checked request statusBefore =>
    obtain ⟨id, hid, hbefore⟩ := h
    by_cases hnow : s.session.bridge.receiptId = some id
    · exact ⟨id, (hcurrent id hid s.accepted fun _ => rfl).1, hbefore⟩
    · exact ⟨id, (hcurrent id hid 0 fun hid => absurd hid hnow).1, hbefore⟩
  | read request statusBefore read recordedAt =>
    obtain ⟨id, hid, hbefore, hfresh⟩ := h
    obtain ⟨hmem, hfresh'⟩ := hcurrent id hid recordedAt hfresh
    exact ⟨id, hmem, hbefore, hfresh'⟩

theorem fresh_of_effect (h : s.Fresh) (he : ObserveEffect s t)
    (hpreflights : t.preflights = s.preflights) : t.Fresh := by
  refine ⟨?_, ?_, ?_⟩
  · intro id hnow
    cases he with
    | kept hreceipt hactive hids haccepted hrecorded =>
      rw [hids]
      obtain hsame | hnone := hreceipt
      · exact h.known id (hsame ▸ hnow)
      · rw [hnone] at hnow
        cases hnow
    | recorded new hnew hreceipt hids haccepted hrecorded =>
      obtain rfl := some.inj (hreceipt.symm.trans hnow)
      rw [hids]
      exact mem_cons_self
    | accepted hreceipt hids =>
      rw [hreceipt] at hnow
      cases hnow
  · intro hactive' hsome
    cases he with
    | kept hreceipt hactive hids haccepted hrecorded =>
      rw [hrecorded, haccepted]
      obtain hsame | hnone := hreceipt
      · exact h.current (hactive hactive') (hsame ▸ hsome)
      · rw [hnone] at hsome
        cases hsome
    | recorded new hnew hreceipt hids haccepted hrecorded => rw [hrecorded, haccepted]
    | accepted hreceipt hids =>
      rw [hreceipt] at hsome
      cases hsome
  · intro stage hstage
    rw [hpreflights] at hstage
    exact stageFresh_of_effect he (h.preflights stage hstage)

theorem fresh_withPreflights (h : s.Fresh) {preflights : List PreflightStage}
    (hstages : ∀ stage ∈ preflights, s.StageFresh stage) : { s with preflights }.Fresh :=
  ⟨h.known, h.current, hstages⟩

variable {status : ObservationStatus} {session : ObserveSession}

/-- A status names the bridge's receipt. -/
theorem receiptId_of_status (h : session.status = some status) :
    session.active.isSome ∧ status.reconciliationReceiptId = session.bridge.receiptId := by
  obtain ⟨observation, hactive, hstatus⟩ := bind_eq_some_iff.mp h
  obtain ⟨state, hstate, rfl⟩ := map_eq_some_iff.mp hstatus
  refine ⟨by rw [hactive]; rfl, ?_⟩
  unfold SessionObservation.receiptId
  rw [hstate]
  rfl

theorem gate_established {u : Unit} (h : requireReconciledContinuity status = .ok u)
    (hrequires : requiresReconciliation status.eventContinuity = true) :
    status.currentSnapshotCompleteness = some .established := by
  have hpass := rejectIf_eq_ok.mp h
  by_contra hne
  exact hpass ⟨hrequires, hne⟩

theorem receiptId_of_completeness {completeness : ReconciliationCompleteness}
    (h : session.status = some status)
    (hcompleteness : status.currentSnapshotCompleteness = some completeness) :
    status.reconciliationReceiptId.isSome := by
  obtain ⟨-, -, hstatus⟩ := bind_eq_some_iff.mp h
  obtain ⟨state, -, rfl⟩ := map_eq_some_iff.mp hstatus
  obtain ⟨receipt, hreceipt, -⟩ := map_eq_some_iff.mp hcompleteness
  show (state.reconciliation.map (·.receiptId)).isSome
  rw [hreceipt]
  rfl

theorem active_of_readSemantic {request : WindowsSemanticReadRequest}
    {read : WindowsSemanticReadReceipt} (h : session.readSemantic request = .ok read) :
    session.active.isSome := by
  obtain ⟨observation, hactive, -⟩ := okOr_bind_eq_ok.mp h
  rw [hactive]
  rfl

theorem fresh_step (h : s.Fresh) (hcond : s.reconciledFirst eventCapacity a = true)
    (hs : ObserveSystemStep eventCapacity s a t) : t.Fresh := by
  have hact := hs
  unfold ObserveSystemStep at hact
  cases a with simp only [ObserveSystem.act] at hact
  | drain e =>
    obtain ⟨heffect, hpreflights⟩ := drain_effect hs hcond
    exact fresh_of_effect h heffect hpreflights
  | attach e =>
    split_ifs at hact
    obtain ⟨hok, herror⟩ := attach_effect s e
    obtain ⟨heffect, hpreflights⟩ := ObserveEffect.of_recorded hok herror hact
    exact fresh_of_effect h heffect hpreflights
  | reconcile e =>
    split_ifs at hact
    obtain ⟨hok, herror⟩ := reconcile_effect s.session e
    have hfree : { s with reconciling := false }.Fresh := ⟨h.known, h.current, h.preflights⟩
    obtain ⟨heffect, hpreflights⟩ :=
      @ObserveEffect.of_recorded { s with reconciling := false } t _ _ _ hok herror hact
    exact fresh_of_effect hfree heffect hpreflights
  | publish snapshot receiptId =>
    split_ifs at hact
    obtain ⟨hok, herror⟩ := publishSnapshot_effect s.session snapshot receiptId
    obtain ⟨heffect, hpreflights⟩ := ObserveEffect.of_recorded hok herror hact
    exact fresh_of_effect h heffect hpreflights
  | release =>
    split_ifs at hact
    cases hact
    refine fresh_of_effect h (.kept ?_ ?_ rfl rfl rfl) rfl
    · unfold ObserveSession.release
      split
      · exact .inl rfl
      · exact .inr rfl
    · unfold ObserveSession.release
      split
      · exact id
      · exact fun h => Bool.noConfusion h
  | webBatch batch =>
    cases hact
    exact fresh_of_effect h (.kept (.inl rfl) id rfl rfl rfl) rfl
  | releaseObservation =>
    cases hact
    exact fresh_of_effect h (.kept (.inr rfl) id rfl rfl rfl) rfl
  | readSemantic request =>
    split_ifs at hact
    cases hact
    exact h
  | preflight request =>
    split at hact
    · cases hact
      exact h
    · next statusBefore hbefore =>
      cases hact
      obtain ⟨status, hstatus, hrest⟩ := okOr_bind_eq_ok.mp hbefore
      obtain ⟨u, hgate, hrest⟩ := bind_eq_ok.mp hrest
      obtain rfl := Except.ok.inj hrest
      obtain ⟨-, hreceipt⟩ := receiptId_of_status hstatus
      have hsome : s.session.bridge.receiptId.isSome := by
        by_cases hrequires : requiresReconciliation status.eventContinuity = true
        · -- the gate itself asks for a snapshot then
          rw [← hreceipt]
          exact receiptId_of_completeness hstatus (gate_established hgate hrequires)
        · simpa [ObserveSystem.reconciledFirst, hstatus, hrequires] using hcond
      obtain ⟨id, hid⟩ := isSome_iff_exists.mp hsome
      refine fresh_withPreflights h fun stage hstage => ?_
      rcases mem_append.mp hstage with hold | hnew
      · exact h.preflights stage hold
      · obtain rfl := mem_singleton.mp hnew
        exact ⟨id, h.known id hid, hreceipt.trans hid⟩
  | preflightRead preflight =>
    split_ifs at hact
    split at hact
    · next request statusBefore hchecked =>
      split at hact
      · cases hact
        exact fresh_withPreflights h fun stage hstage =>
          h.preflights stage (mem_of_mem_eraseIdx hstage)
      · next read hread =>
        cases hact
        refine fresh_withPreflights h fun stage hstage => ?_
        rcases mem_or_eq_of_mem_set hstage with hold | rfl
        · exact h.preflights stage hold
        · obtain ⟨id, hid, hbefore⟩ := h.preflights _ (mem_of_getElem? hchecked)
          have hactive := active_of_readSemantic (mapError_eq_ok.mp hread)
          exact ⟨id, hid, hbefore, fun hnow => h.current hactive (by rw [hnow]; rfl)⟩
    · cases hact
  | preflightEnd preflight =>
    split at hact
    · cases hact
      exact fresh_withPreflights h fun stage hstage =>
        h.preflights stage (mem_of_mem_eraseIdx hstage)
    · cases hact

theorem evidenceFresh_of_fresh (h : s.Fresh) (hcond : s.reconciledFirst eventCapacity a = true) :
    s.EvidenceFresh a := by
  intro recordedAt hevidence
  cases a with
  | readSemantic request =>
    unfold ObserveSystem.evidence at hevidence
    dsimp only at hevidence
    split_ifs at hevidence with hok
    cases hevidence
    cases hread : s.session.readSemantic request with
    | error error =>
      rw [hread] at hok
      cases hok
    | ok read =>
      obtain ⟨observation, hactive⟩ := isSome_iff_exists.mp (active_of_readSemantic hread)
      refine h.current (by rw [hactive]; rfl) ?_
      simpa [ObserveSystem.reconciledFirst, hactive] using hcond
  | preflightEnd preflight =>
    unfold ObserveSystem.evidence at hevidence
    dsimp only at hevidence
    split at hevidence
    · next request statusBefore read recordedAt' hstage =>
      split_ifs at hevidence with hok
      cases hevidence
      obtain ⟨id, -, hbefore, hfresh⟩ := h.preflights _ (mem_of_getElem? hstage)
      cases hreceipt : s.session.preflightReceipt request statusBefore read with
      | error error =>
        rw [hreceipt] at hok
        cases hok
      | ok receipt =>
        -- the status is what it was before the read, its receipt included
        obtain ⟨statusAfter, hafter, hrest⟩ := okOr_bind_eq_ok.mp hreceipt
        obtain ⟨hsame, -⟩ := rejectIf_bind_eq_ok.mp hrest
        obtain rfl := not_ne_iff.mp hsame
        exact hfresh ((receiptId_of_status hafter).2.symm.trans hbefore)
    · cases hevidence
  | attach | drain | reconcile | publish | release | webBatch | releaseObservation | preflight
  | preflightRead => cases hevidence

end

/-! ## Runs -/

theorem fresh_new (sessionId : SessionId) (buffer : EventBuffer) (generation : Nat) :
    (ObserveSystem.new sessionId buffer generation).Fresh := by
  refine ⟨?_, ?_, ?_⟩
  · intro id hnow
    cases hnow
  · intro hactive
    cases hactive
  · intro stage hstage
    cases hstage

/-- **Evidence is fresh while it is reconciled first.**  In a run in which each drain
that accepts callbacks makes the bridge forget its reconciliation, and a session is
read, and passes the preflight's gate, only while the bridge holds one, every read
and every preflight that succeeds used a snapshot recorded after the last callback
that was accepted. -/
theorem evidence_fresh_while_reconciled (eventCapacity : Nat) (sessionId : SessionId)
    (buffer : EventBuffer) (generation : Nat) (tr : List ObserveAct)
    (h : Along (ObserveSystemStep eventCapacity)
      (fun s a => s.reconciledFirst eventCapacity a = true) (.new sessionId buffer generation) tr) :
    Along (ObserveSystemStep eventCapacity) (fun s a => s.EvidenceFresh a)
      (.new sessionId buffer generation) tr :=
  Along.of_invariant (I := ObserveSystem.Fresh) (fun _ _ _ hs hcond hstep => fresh_step hs hcond hstep)
    (fun _ _ hs hcond => evidenceFresh_of_fresh hs hcond) h (fresh_new sessionId buffer generation)

/-! ## A callback whose reconciliation is denied -/

/-- A button, as a snapshot acquires it. -/
def buttonRef (acquisitionCutRef : String) : ProviderElementRef :=
  { providerFamily := "windows_uia", providerIncarnationRef := ⟨"provider:1"⟩
    targetIncarnationRef := ⟨"target:1"⟩, opaqueProviderElementId := "button"
    semanticLocatorHints := [], parentSurfaceRef := none, acquisitionCutRef
    realization := .realizedCurrent, lifetimeProfileRevision := "lifetime:1" }

def buttonSnapshot (snapshotCutRef : String) : SemanticSnapshot :=
  { revision := ⟨{ receiptId := "", providerIncarnationRef := ⟨"provider:1"⟩
                   targetIncarnationRef := ⟨"target:1"⟩, snapshotCutRef, surfaceScope := "surface:1"
                   completeness := .established, cacheProfileRevision := "cache:1"
                   permissionVisibilityRevision := "permission:1", captureSequence := 1
                   observedDigest := "digest:1", incompletenessDebt := [] }⟩
    cacheRevisionRef := "cache:1"
    nodes :=
      [{ elementRef := buttonRef snapshotCutRef
         attributes := (AssocMap.empty.insert "windows_uia.action_capability_profile"
           windowsUiaActionCapabilityProfileV1).insert "windows_uia.pattern.invoke" "supported" }] }

def buttonRequest (snapshotCutRef : String) : WindowsUiaActionPreflightRequest :=
  { authority :=
      { decisionPrincipalRef := ⟨"principal:1"⟩, actingPrincipalRef := ⟨"principal:1"⟩
        authorizationRevision := "authorization:1", preconditionSnapshotCutRef := snapshotCutRef
        providerIncarnationRef := ⟨"provider:1"⟩, targetIncarnationRef := ⟨"target:1"⟩
        riskClass := .localDataMutation, idempotencyClass := .irreversible
        expectedPostconditionContractRefs := [] }
    elementRef := buttonRef snapshotCutRef
    requiredPattern := .invoke }

/-- An ordering-opaque attachment, and a drain of one callback. -/
def attachedDrain : List ObserveAct :=
  [.attach
    { admission := .ok (), attached := .ok (), providerIncarnationRef := ⟨"provider:1"⟩
      targetIncarnationRef := ⟨"target:1"⟩, subscribed := .ok ⟨⟨"provider:1"⟩, ⟨"target:1"⟩, 0⟩
      initialContinuity := .orderingOpaque, snapshot := .ok (buttonSnapshot "cut:1")
      receiptUuid := 1 },
   .drain
    { admission := .ok ()
      drained := .ok ⟨[⟨1, 0, ⟨"provider:1"⟩, ⟨"target:1"⟩, .focusChanged, none⟩], 0, 1⟩
      webBefore := fun _ => [] }]

/-- A preflight of the button, from its status to its end. -/
def buttonPreflight (snapshotCutRef : String) : List ObserveAct :=
  [.preflight (buttonRequest snapshotCutRef), .preflightRead 0, .preflightEnd 0]

/-- The callback is reconciled; the preflight uses the new snapshot. -/
theorem evidence_fresh_reconciledDrain :
    Along (ObserveSystemStep 32) (fun s a => s.EvidenceFresh a) (.new 7 ⟨0, none, []⟩ 0)
      (attachedDrain ++ .reconcile ⟨.ok (), .ok (buttonSnapshot "cut:2"), 2⟩ ::
        buttonPreflight "cut:2") :=
  evidence_fresh_while_reconciled 32 7 ⟨0, none, []⟩ 0 _ (Along.of_meets (by decide +kernel))

/-- The callback's reconciliation is denied; the preflight of the snapshot before it
succeeds. -/
theorem preflight_uses_invalidated_snapshot :
    ¬ ∀ (eventCapacity : Nat) (sessionId : SessionId) (buffer : EventBuffer) (generation : Nat)
      (tr : List ObserveAct), Along (ObserveSystemStep eventCapacity) (fun s a => s.EvidenceFresh a)
        (.new sessionId buffer generation) tr := by
  intro hfresh
  let denied : List ObserveAct := attachedDrain ++
    [.reconcile ⟨.error ⟨.nativeSemanticReconciliation, ⟨.critical, [], []⟩⟩,
        .ok (buttonSnapshot "cut:2"), 2⟩,
      .preflight (buttonRequest "cut:1"), .preflightRead 0]
  let start : ObserveSystem := .new 7 ⟨0, none, []⟩ 0
  have hrun : ((perform (fun s a => ObserveSystem.act s 32 a) start denied).map fun s =>
      (s.evidence (.preflightEnd 0), s.accepted)) = some (some 0, 1) := by decide +kernel
  obtain ⟨s, hs, hend⟩ := map_eq_some_iff.mp hrun
  obtain ⟨hevidence, haccepted⟩ := Prod.mk.inj hend
  have h := hfresh 32 7 ⟨0, none, []⟩ 0 (denied ++ [.preflightEnd 0]) denied (.preflightEnd 0) [] s rfl
    (run_of_perform hs) 0 hevidence
  rw [haccepted] at h
  cases h

end Localview
