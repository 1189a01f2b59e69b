import Localview.SurfaceHandlers
import Localview.SurfaceRecoveryCrash

/-! # Live surfaces across restarts

Runs of the surface handlers with daemon restarts among them.  A surface is
unreleased while the last of its events that a handler acknowledged activated or
reattached it; its owner can reattach it after a restart where its key is
outstanding in the journal then opened.

`Reattached` takes the key out of the outstanding ones, as `Released` does, while
the surface is live in memory only: the next restart finds nothing to reattach.
-/
namespace Localview
open EarlyReturn StateRun List

/-- A call of the daemon's surface handlers. -/
inductive SurfaceCall (F : Type)
  | register (authorized : Bool) (ownerInstanceId newEpoch ownerLeaseId : Uuid) (now : Instant)
  | heartbeat (authorized : Bool) (proof : SurfaceOwnerProof) (now : Instant)
  | reap (now : Instant)
  | reserve (context : SurfaceRequestContext) (request : SurfaceReserveRequest)
  | cancel (context : SurfaceRequestContext) (request : SurfaceReserveRequest)
  | activate (context : SurfaceRequestContext) (request : SurfaceActivateRequest)
  | reattach (context : SurfaceRequestContext) (request : SurfaceReattachRequest)
      (requestId : String)
  | visibility (context : SurfaceRequestContext) (request : SurfaceReattachRequest)
  | release (context : SurfaceRequestContext) (request : SurfaceReleaseRequest)
  | releaseSession (session : SessionId)
  /-- Other work changes the governor. -/
  | govern (governor : RuntimeGovernorState F)
  /-- The daemon starts anew. -/
  | restart (budget : ResourceBudget F)

/-- The key a request names. -/
def SurfaceActivateRequest.recoveryKey (request : SurfaceActivateRequest) : SurfaceRecoveryKey :=
  ⟨request.sessionId, request.surfaceKind, request.label, request.incarnation,
    request.proof.ownerInstanceId⟩

@[inherit_doc SurfaceActivateRequest.recoveryKey]
def SurfaceReattachRequest.recoveryKey (request : SurfaceReattachRequest) : SurfaceRecoveryKey :=
  ⟨request.sessionId, request.surfaceKind, request.label, request.incarnation,
    request.proof.ownerInstanceId⟩

@[inherit_doc SurfaceActivateRequest.recoveryKey]
def SurfaceReleaseRequest.recoveryKey (request : SurfaceReleaseRequest) : SurfaceRecoveryKey :=
  ⟨request.sessionId, request.surfaceKind, request.label, request.incarnation,
    request.proof.ownerInstanceId⟩

/-- The event a call records before it is acknowledged. -/
def SurfaceCall.event {F : Type} : SurfaceCall F → Option SurfaceRecoveryEvent
  | .activate _ request => some (.activated request.recoveryKey)
  | .reattach _ request _ => some (.reattached request.recoveryKey)
  | .release _ request => some (.released request.recoveryKey)
  | _ => none

/-- Make a call; only requests are replied to. -/
def SurfaceDaemon.call {F : Type} [Binary32 F] (codec : SurfaceEventCodec) (d : SurfaceDaemon F) :
    SurfaceCall F → Option SurfaceReply × SurfaceDaemon F
  | .register authorized ownerInstanceId newEpoch ownerLeaseId now =>
      (d.registerSurfaceOwnerRequest authorized ownerInstanceId newEpoch ownerLeaseId now).map
        some id
  | .heartbeat authorized proof now =>
      (d.heartbeatSurfaceOwnerRequest authorized proof now).map some id
  | .reap now => (none, (d.reapExpiredSurfaceOwnerResources now).2)
  | .reserve context request => (d.reserveSurfaceResource context request).map some id
  | .cancel context request => (d.cancelSurfaceReservation context request).map some id
  | .activate context request => (d.activateSurfaceResource codec context request).map some id
  | .reattach context request requestId =>
      (d.reattachSurfaceResource codec context request requestId).map some id
  | .visibility context request => (d.updateSurfaceVisibility context request).map some id
  | .release context request => (d.releaseSurfaceResource codec context request).map some id
  | .releaseSession session => (none, (d.releaseSurfaceResourceSession session).2)
  | .govern governor => (none, { d with governor })
  | .restart budget => (none, .start codec budget d.recovery.file)

/-- A call, its reply, and what it wrote at the end of the journal's file. -/
structure SurfaceLabel (F : Type) where
  call : SurfaceCall F
  reply : Option SurfaceReply
  written : Bytes

def SurfaceDaemonStep {F : Type} [Binary32 F] (codec : SurfaceEventCodec) (d : SurfaceDaemon F)
    (l : SurfaceLabel F) (d' : SurfaceDaemon F) : Prop :=
  d.call codec l.call = (l.reply, d') ∧ d'.recovery.file = d.recovery.file ++ l.written

/-! ## What a run tells of a surface -/

section
variable {F : Type}

def SurfaceLabel.acknowledged (l : SurfaceLabel F) : Option SurfaceRecoveryEvent :=
  if l.reply = some .noContent then l.call.event else none

/-- The record a call got into the file, or some part of it. -/
def SurfaceLabel.attempt (l : SurfaceLabel F) : Option RecordAttempt :=
  if l.written = [] then none
  else l.call.event.map fun event => ⟨event, l.written, l.reply = some .noContent⟩

def acknowledgedEvents (tr : List (SurfaceLabel F)) : List SurfaceRecoveryEvent :=
  tr.filterMap (·.acknowledged)

def surfaceAttempts (tr : List (SurfaceLabel F)) : List RecordAttempt :=
  tr.filterMap (·.attempt)

def lastEvent (events : List SurfaceRecoveryEvent) (key : SurfaceRecoveryKey) :
    Option SurfaceRecoveryEvent :=
  (events.filter fun event => event.key = key).getLast?

/-- The surface was activated or reattached, and not released since. -/
def Unreleased (tr : List (SurfaceLabel F)) (key : SurfaceRecoveryKey) : Prop :=
  ∃ event, lastEvent (acknowledgedEvents tr) key = some event ∧ event ≠ .released key

/-- **Live surfaces are recoverable**: what the run left unreleased, the journal
has outstanding. -/
def RecoversUnreleased (tr : List (SurfaceLabel F)) (d : SurfaceDaemon F) : Prop :=
  ∀ key, Unreleased tr key →
    ∃ journal, d.recovery.journal = some journal ∧ journal.outstandingExact key = true

/-- The journal's file is whole lines, but for the last newline, within the
limits, and the last event in it on each unreleased surface is its activation. -/
def UnreleasedAsActivated (codec : SurfaceEventCodec) (tr : List (SurfaceLabel F)) : Prop :=
  ∀ key, Unreleased tr key →
    (LeavesWholeLines codec (surfaceAttempts tr) ∧ WithinLimits (surfaceAttempts tr)) ∧
      lastEvent ((surfaceAttempts tr).map (·.event)) key = some (.activated key)

theorem SurfaceRecoveryEvent.mem_apply {event : SurfaceRecoveryEvent}
    {outstanding : Finset SurfaceRecoveryKey} {key : SurfaceRecoveryKey} :
    key ∈ event.apply outstanding ↔
      event = .activated key ∨ event.key ≠ key ∧ key ∈ outstanding := by
  by_cases hkey : event.key = key
  · subst hkey
    cases event <;> simp [SurfaceRecoveryEvent.apply, SurfaceRecoveryEvent.key]
  · cases event with
    | activated other | released other | reattached other =>
      have hne : other ≠ key := hkey
      simp [SurfaceRecoveryEvent.apply, SurfaceRecoveryEvent.key, hne, hne.symm]

/-- **What replaying leaves outstanding**: the keys whose last event is an
activation. -/
theorem mem_replayEvents {events : List SurfaceRecoveryEvent} {key : SurfaceRecoveryKey} :
    key ∈ replayEvents ∅ events ↔ lastEvent events key = some (.activated key) := by
  induction events using List.reverseRecOn with
  | nil => simp [replayEvents, lastEvent]
  | append_singleton events event ih =>
    have hreplay : replayEvents ∅ (events ++ [event]) = event.apply (replayEvents ∅ events) := by
      rw [replayEvents, foldl_append]
      rfl
    rw [hreplay, SurfaceRecoveryEvent.mem_apply, ih]
    by_cases hkey : event.key = key
    · simp [lastEvent, hkey]
    · have hne : event ≠ .activated key := fun h => hkey (by rw [h]; rfl)
      simp [lastEvent, hkey, hne]

end

/-! ## What a call does to the journal -/

/-- The journal kept by a request that is not acknowledged, or the event recorded
once. -/
inductive RecordEffect (codec : SurfaceEventCodec) (event : SurfaceRecoveryEvent)
    (s : SurfaceRecoveryStore) (reply : SurfaceReply) : SurfaceRecoveryStore → Prop
  | kept : reply ≠ .noContent → RecordEffect codec event s reply s
  | recorded (journal journal' : SurfaceRecoveryJournal) (file' : Bytes)
      (stopped : Option (Nat × String)) (result : Except SurfaceRecoveryError Unit) :
      s.journal = some journal →
      journal.record codec event stopped s.file = (result, journal', file') →
      (reply = .noContent → result = .ok ()) →
      RecordEffect codec event s reply ⟨file', some journal'⟩

section
variable {F : Type} {codec : SurfaceEventCodec} {d d' : SurfaceDaemon F} {reply : SurfaceReply}

variable {context : SurfaceRequestContext} {body : SurfaceDaemon F → SurfaceReply × SurfaceDaemon F}

open SurfaceDaemon

theorem withPin_recovery {proof : SurfaceOwnerProof}
    (h : d.withPin context proof body = (reply, d')) :
    (d'.recovery = d.recovery ∧ reply ≠ .noContent) ∨
      ∃ d₁ d₂, d₁.recovery = d.recovery ∧ body d₁ = (reply, d₂) ∧ d'.recovery = d₂.recovery := by
  rw [withPin] at h
  split at h
  · cases h
    exact .inl ⟨rfl, by simp⟩
  · rcases hpin : pinSurfaceOwner d.owners proof context.now with ⟨error | ⟨⟩, owners⟩
    · rw [hpin] at h
      cases h
      exact .inl ⟨rfl, by cases error <;> simp [surfaceOwnerConflict]⟩
    · rw [hpin] at h
      cases h
      exact .inr ⟨{ d with owners }, (body { d with owners }).2, rfl, rfl, rfl⟩

variable {event : SurfaceRecoveryEvent}

theorem withPin_effect {proof : SurfaceOwnerProof} (h : d.withPin context proof body = (reply, d'))
    (heffect : ∀ d₁ d₂, body d₁ = (reply, d₂) →
      RecordEffect codec event d₁.recovery reply d₂.recovery) :
    RecordEffect codec event d.recovery reply d'.recovery := by
  rcases withPin_recovery h with ⟨hkept, hne⟩ | ⟨d₁, d₂, hpre, hbody, hpost⟩
  · rw [hkept]
    exact .kept hne
  · rw [hpost, ← hpre]
    exact heffect d₁ d₂ hbody

theorem recordEvent_effect {stopped : Option (Nat × String)}
    {result : Option (Except SurfaceRecoveryError Unit)}
    (h : d.recordEvent codec event stopped = (result, d'))
    (hreply : reply = .noContent → result = some (.ok ())) :
    RecordEffect codec event d.recovery reply d'.recovery := by
  rcases hjournal : d.recovery.journal with _ | journal
  · rw [recordEvent_none hjournal] at h
    cases h
    exact .kept fun hack => by cases hreply hack
  · rcases hrecord : journal.record codec event stopped d.recovery.file with
      ⟨recorded, journal', file'⟩
    rw [recordEvent_some hjournal hrecord] at h
    cases h
    exact .recorded journal journal' file' stopped recorded hjournal hrecord
      fun hack => Option.some.inj (hreply hack)

theorem activateClaim_effect {stopped : Option (Nat × String)} {claim : SurfaceClaim}
    {visibility : SurfaceVisibility} {reservation : ResourceReservation}
    (h : d.activateClaim codec stopped claim visibility event reservation = (reply, d')) :
    RecordEffect codec event d.recovery reply d'.recovery := by
  rw [activateClaim] at h
  have hkept := (d.activateReservation_frame claim visibility reservation).recovery
  rcases hlease : d.activateReservation claim visibility reservation with ⟨_ | lease, d₁⟩
  · rw [hlease] at h hkept
    cases h
    rw [hkept]
    exact .kept (by simp)
  · rw [hlease] at h hkept
    dsimp only at h hkept
    rw [← hkept]
    rcases hrecord : d₁.recordEvent codec event stopped with ⟨result, d₂⟩
    rw [hrecord] at h
    split at h
    next hok =>
      cases hok
      cases h
      rw [(d₂.publishLive_frame claim lease).recovery]
      exact recordEvent_effect hrecord fun _ => rfl
    next hfail =>
      cases hfail
      cases h
      rw [(d₂.abandonActivation_frame claim lease).recovery]
      exact recordEvent_effect hrecord (by simp [surfaceRecoveryUnavailable])

/-- Both activations begin with a claim on the surface the request names. -/
theorem checkClaim_ok {session : SessionId} {surfaceKind label : String} {incarnation : Nat}
    {owner : Uuid} {claim : SurfaceClaim} {journal : SurfaceRecoveryJournal}
    (h : d.checkClaim session surfaceKind label incarnation owner = .ok (claim, journal)) :
    claim.recoveryKey = ⟨session, surfaceKind, label, incarnation, owner⟩ := by
  rw [checkClaim] at h
  split at h
  · cases h
  · rcases hidentity : surfaceIdentity surfaceKind label incarnation with _ | identity
    · rw [hidentity] at h
      cases h
    · rw [hidentity] at h
      dsimp only at h
      split at h
      · cases h
      · split at h
        · cases h
        · obtain ⟨rfl, -⟩ := Prod.mk.inj (Except.ok.inj h)
          obtain rfl := surfaceIdentity_eq_some hidentity
          rfl

theorem checkClaim_error {session : SessionId} {surfaceKind label : String} {incarnation : Nat}
    {owner : Uuid} (h : d.checkClaim session surfaceKind label incarnation owner = .error reply) :
    reply ≠ .noContent := by
  rw [checkClaim] at h
  split at h
  · cases h
    simp
  · split at h
    · cases h
      simp
    · split at h
      · cases h
        simp [surfaceRecoveryUnavailable]
      · dsimp only at h
        split at h
        · cases h
          simp
        · cases h

theorem activateSurfaceResource_effect {request : SurfaceActivateRequest}
    (h : d.activateSurfaceResource codec context request = (reply, d')) :
    RecordEffect codec (.activated request.recoveryKey) d.recovery reply d'.recovery := by
  refine withPin_effect h fun d₁ d₂ hbody => ?_
  rcases hcheck : d₁.checkClaim request.sessionId request.surfaceKind request.label
      request.incarnation request.proof.ownerInstanceId with reply' | ⟨claim, journal⟩
  · rw [hcheck] at hbody
    cases hbody
    exact .kept (checkClaim_error hcheck)
  · rw [hcheck] at hbody
    dsimp only at hbody
    have hkept := (d₁.beginActivation_frame claim request.requestId).recovery
    rcases hbegin : d₁.beginActivation claim request.requestId with ⟨error | reservation, d₃⟩ <;>
      rw [hbegin] at hbody hkept <;> rw [← hkept]
    · cases hbody
      exact .kept (by simp)
    · rw [checkClaim_ok hcheck] at hbody
      exact activateClaim_effect hbody

theorem releaseSurfaceResource_effect {request : SurfaceReleaseRequest}
    (h : d.releaseSurfaceResource codec context request = (reply, d')) :
    RecordEffect codec (.released request.recoveryKey) d.recovery reply d'.recovery := by
  refine withPin_effect h fun d₁ d₂ hbody => ?_
  rcases hidentity : surfaceIdentity request.surfaceKind request.label request.incarnation with
    _ | identity
  · rw [hidentity] at hbody
    cases hbody
    exact .kept (by simp)
  · rw [hidentity] at hbody
    obtain rfl := surfaceIdentity_eq_some hidentity
    dsimp only at hbody
    set claim : SurfaceClaim := ⟨request.proof.ownerInstanceId, request.sessionId,
      ⟨request.surfaceKind, request.label, request.incarnation⟩⟩
    have hkept := (d₁.removeLive_frame claim).recovery
    rcases hremove : d₁.removeLive claim with ⟨error | ⟨⟩, d₃⟩ <;>
      rw [hremove] at hbody hkept <;> rw [← hkept]
    · cases hbody
      exact .kept (by simp)
    · dsimp only at hbody
      rcases hkey : claim.recoveryKey.new with error | key
      · rw [hkey] at hbody
        cases hbody
        exact .kept (by simp)
      · obtain rfl := SurfaceRecoveryKey.new_eq_ok hkey
        rw [hkey] at hbody
        dsimp only at hbody
        rcases hrecord : d₃.recordEvent codec (.released claim.recoveryKey) context.stopped with
          ⟨result, d₄⟩
        rw [hrecord] at hbody
        split at hbody
        next hok =>
          cases hok
          cases hbody
          exact recordEvent_effect hrecord fun _ => rfl
        next hfail =>
          cases hfail
          cases hbody
          exact recordEvent_effect hrecord (by simp [surfaceRecoveryUnavailable])

/-! Every other call leaves the file as it is. -/

theorem withPin_kept {proof : SurfaceOwnerProof}
    (hbody : ∀ d₁, (body d₁).2.recovery = d₁.recovery) :
    (d.withPin context proof body).2.recovery = d.recovery := by
  rcases hpin : d.withPin context proof body with ⟨reply, d'⟩
  rcases withPin_recovery hpin with ⟨hkept, -⟩ | ⟨d₁, d₂, hpre, hrun, hpost⟩
  · exact hkept
  · have hkept := hbody d₁
    rw [hrun] at hkept
    rw [hpost, hkept, hpre]

theorem reapExpiredSurfaceOwnerResources_recovery (now : Instant) :
    (d.reapExpiredSurfaceOwnerResources now).2.recovery = d.recovery := by
  have hfold : ∀ (owners : List Uuid) (s : Nat × SurfaceDaemon F),
      (owners.foldl (fun s owner => (s.1 + (s.2.releaseSurfaceResourceOwner owner).1,
        (s.2.releaseSurfaceResourceOwner owner).2)) s).2.recovery = s.2.recovery := by
    intro owners
    induction owners with
    | nil => exact fun s => rfl
    | cons owner owners ih =>
      intro s
      rw [foldl_cons, ih]
      exact (s.2.releaseSurfaceResourceOwner_frame owner).recovery
  exact hfold _ _

theorem cancelSurfaceReservation_recovery (context : SurfaceRequestContext)
    (request : SurfaceReserveRequest) :
    (d.cancelSurfaceReservation context request).2.recovery = d.recovery := by
  refine withPin_kept fun d₁ => ?_
  split
  · rfl
  · split
    · rfl
    · have hkept := (d₁.cancelPending_frame
        ⟨request.proof.ownerInstanceId, request.sessionId, request.requestId⟩).recovery
      rcases hcancel : d₁.cancelPending
        ⟨request.proof.ownerInstanceId, request.sessionId, request.requestId⟩ with ⟨error | ⟨⟩, d₂⟩ <;>
        rw [hcancel] at hkept <;> exact hkept

theorem updateSurfaceVisibility_recovery (context : SurfaceRequestContext)
    (request : SurfaceReattachRequest) :
    (d.updateSurfaceVisibility context request).2.recovery = d.recovery := by
  refine withPin_kept fun d₁ => ?_
  split
  · rfl
  · next identity _ =>
    have hkept := (d₁.setVisibility_frame
      ⟨request.proof.ownerInstanceId, request.sessionId, identity⟩ request.visibility).recovery
    rcases hset : d₁.setVisibility ⟨request.proof.ownerInstanceId, request.sessionId, identity⟩
      request.visibility with ⟨error | ⟨⟩, d₂⟩ <;> rw [hset] at hkept <;> exact hkept

variable [Binary32 F]

theorem reattachSurfaceResource_effect {request : SurfaceReattachRequest} {requestId : String}
    (h : d.reattachSurfaceResource codec context request requestId = (reply, d')) :
    RecordEffect codec (.reattached request.recoveryKey) d.recovery reply d'.recovery := by
  refine withPin_effect h fun d₁ d₂ hbody => ?_
  split at hbody
  · cases hbody
    exact .kept (by simp)
  rcases hcheck : d₁.checkClaim request.sessionId request.surfaceKind request.label
      request.incarnation request.proof.ownerInstanceId with reply' | ⟨claim, journal⟩
  · rw [hcheck] at hbody
    cases hbody
    exact .kept (checkClaim_error hcheck)
  · rw [hcheck] at hbody
    dsimp only at hbody
    split at hbody
    · cases hbody
      exact .kept (by simp)
    have hkept := (d₁.beginReattach_frame claim requestId).recovery
    rcases hbegin : d₁.beginReattach claim requestId with ⟨(error | denial) | reservation, d₃⟩ <;>
      rw [hbegin] at hbody hkept <;> rw [← hkept]
    · cases hbody
      exact .kept (by simp)
    · cases hbody
      exact .kept (by simp)
    · rw [checkClaim_ok hcheck] at hbody
      exact activateClaim_effect hbody

theorem reserveSurfaceResource_recovery (context : SurfaceRequestContext)
    (request : SurfaceReserveRequest) :
    (d.reserveSurfaceResource context request).2.recovery = d.recovery := by
  refine withPin_kept fun d₁ => ?_
  split
  · rfl
  · split
    · rfl
    · have hkept := (d₁.reservePending_frame
        ⟨request.proof.ownerInstanceId, request.sessionId, request.requestId⟩).recovery
      rcases hreserve : d₁.reservePending
        ⟨request.proof.ownerInstanceId, request.sessionId, request.requestId⟩ with
        ⟨(error | denial) | ⟨⟩, d₂⟩ <;> rw [hreserve] at hkept <;> exact hkept

theorem call_file {c : SurfaceCall F} (hevent : c.event = none) :
    (d.call codec c).2.recovery.file = d.recovery.file := by
  cases c with
  | activate | reattach | release => cases hevent
  | govern | restart => rfl
  | reap now => exact congrArg _ (reapExpiredSurfaceOwnerResources_recovery now)
  | releaseSession session =>
    exact congrArg _ (d.releaseSurfaceResourceSession_frame session).recovery
  | register authorized ownerInstanceId newEpoch ownerLeaseId now =>
    simp only [call, registerSurfaceOwnerRequest, Prod.map_snd, id]
    split
    · rfl
    · split
      · rfl
      · exact congrArg _ (reapExpiredSurfaceOwnerResources_recovery now)
  | heartbeat authorized proof now =>
    simp only [call, heartbeatSurfaceOwnerRequest, Prod.map_snd, id]
    split
    · rfl
    · split <;> rfl
  | reserve context request => exact congrArg _ (reserveSurfaceResource_recovery context request)
  | cancel context request => exact congrArg _ (cancelSurfaceReservation_recovery context request)
  | visibility context request => exact congrArg _ (updateSurfaceVisibility_recovery context request)

theorem call_effect {c : SurfaceCall F} {answer : Option SurfaceReply}
    (hevent : c.event = some event) (h : d.call codec c = (answer, d')) :
    ∃ reply, answer = some reply ∧ RecordEffect codec event d.recovery reply d'.recovery := by
  cases c with
  | activate context request =>
    cases hevent
    cases h
    exact ⟨_, rfl, activateSurfaceResource_effect rfl⟩
  | reattach context request requestId =>
    cases hevent
    cases h
    exact ⟨_, rfl, reattachSurfaceResource_effect rfl⟩
  | release context request =>
    cases hevent
    cases h
    exact ⟨_, rfl, releaseSurfaceResource_effect rfl⟩
  | _ => cases hevent

/-- What one step adds to the file is what its label says it wrote. -/
theorem file_of_surfaceStep {l : SurfaceLabel F} (hs : SurfaceDaemonStep codec d l d') :
    (∀ a, l.attempt = some a → a.Admitted codec ∧ d'.recovery.file = d.recovery.file ++ a.written) ∧
      (l.attempt = none → d'.recovery.file = d.recovery.file) := by
  obtain ⟨hcall, hfile⟩ := hs
  by_cases hwritten : l.written = []
  · rw [hwritten, append_nil] at hfile
    simp [SurfaceLabel.attempt, hwritten, hfile]
  -- something was written, so the call records an event
  have hne : d'.recovery.file ≠ d.recovery.file := by
    rw [hfile]
    simpa using hwritten
  rcases hevent : l.call.event with _ | event
  · have hkept := @call_file F codec d _ _ hevent
    rw [hcall] at hkept
    exact absurd hkept hne
  obtain ⟨reply, hreply, heffect⟩ := call_effect hevent hcall
  simp only [SurfaceLabel.attempt, if_neg hwritten, hevent, Option.map_some, Option.some.injEq,
    forall_eq', reduceCtorEq, false_implies, and_true]
  refine ⟨?_, hfile⟩
  generalize hstore : d'.recovery = store at heffect
  rcases heffect with - | ⟨journal, journal', file', stopped, result, hjournal, hrecord, hack⟩
  · exact absurd (congrArg _ hstore) hne
  · rw [hstore] at hne hfile
    rcases record_written hrecord with ⟨-, rfl⟩ | ⟨written, hadded, hadm⟩
    · exact absurd rfl hne
    · obtain rfl : written = l.written := append_cancel_left (hadded.symm.trans hfile)
      refine ⟨hadm.valid, hadm.line, hadm.written, fun h => hadm.whole ?_⟩
      have hok := hack (by simpa [hreply] using h)
      exact decide_eq_true hok

/-- **The file is what the calls wrote**, one after the other. -/
theorem file_of_surfaceRun {budget : ResourceBudget F} {tr : List (SurfaceLabel F)}
    (hrun : Run (SurfaceDaemonStep codec) (.start codec budget []) tr d) :
    (∀ a ∈ surfaceAttempts tr, a.Admitted codec) ∧
      d.recovery.file = (surfaceAttempts tr).flatMap (·.written) :=
  file_of_attempts SurfaceLabel.attempt (fun d : SurfaceDaemon F => d.recovery.file) rfl
    (fun _ _ _ => file_of_surfaceStep) hrun

/-- A call only adds to the file. -/
theorem file_prefix_call (c : SurfaceCall F) :
    d.recovery.file <+: (d.call codec c).2.recovery.file := by
  rcases hevent : c.event with _ | event
  · rw [call_file hevent]
  · rcases hcall : d.call codec c with ⟨answer, d'⟩
    obtain ⟨reply, -, heffect⟩ := call_effect hevent hcall
    dsimp only
    generalize d'.recovery = store at heffect
    rcases heffect with - | ⟨journal, journal', file', stopped, result, hjournal, hrecord, hack⟩
    · exact prefix_refl _
    · rcases record_written hrecord with ⟨-, rfl⟩ | ⟨written, rfl, -⟩
      · exact prefix_refl _
      · exact prefix_append _ _

end

theorem left_surfaceAttempts {F : Type} (tr : List (SurfaceLabel F)) :
    left (surfaceAttempts tr) = surfaceAttempts tr := by
  refine filter_eq_self.mpr fun a ha => ?_
  obtain ⟨l, -, hl⟩ := mem_filterMap.mp ha
  rw [SurfaceLabel.attempt] at hl
  split at hl
  · cases hl
  · next hne =>
    obtain ⟨event, -, rfl⟩ := Option.map_eq_some_iff.mp hl
    simpa using hne

/-- **Live surfaces across restarts.**  After any run, a daemon started on the
journal's file has every unreleased surface outstanding if and only if the file
is whole lines within the limits and the last event in it on each of them is its
activation. -/
theorem recoversUnreleased_iff {F : Type} [Binary32 F] (codec : SurfaceEventCodec)
    (budget budget' : ResourceBudget F) (tr : List (SurfaceLabel F)) (d : SurfaceDaemon F)
    (hrun : Run (SurfaceDaemonStep codec) (.start codec budget []) tr d) :
    RecoversUnreleased tr (.start codec budget' d.recovery.file) ↔
      UnreleasedAsActivated codec tr := by
  obtain ⟨hadm, hfile⟩ := file_of_surfaceRun hrun
  refine forall_congr' fun key => imp_congr_right fun _ => ?_
  have hopen := @openJournal_iff codec (surfaceAttempts tr) hadm
  rw [← hfile, left_surfaceAttempts] at hopen
  simp only [SurfaceDaemon.start, toOption_eq_some, hopen]
  constructor
  · rintro ⟨journal, ⟨hwhole, rfl⟩, hkey⟩
    exact ⟨hwhole, mem_replayEvents.mp (by simpa [SurfaceRecoveryJournal.outstandingExact] using hkey)⟩
  · rintro ⟨hwhole, hlast⟩
    exact ⟨_, ⟨hwhole, rfl⟩,
      by simpa [SurfaceRecoveryJournal.outstandingExact] using mem_replayEvents.mpr hlast⟩

/-! ## A surface that survives two restarts -/

/-- Make the calls in order. -/
def SurfaceDaemon.calls {F : Type} [Binary32 F] (codec : SurfaceEventCodec) (d : SurfaceDaemon F) :
    List (SurfaceCall F) → List (SurfaceLabel F) × SurfaceDaemon F
  | [] => ([], d)
  | c :: cs =>
      let d' := (d.call codec c).2
      let (tr, last) := d'.calls codec cs
      (⟨c, (d.call codec c).1, d'.recovery.file.drop d.recovery.file.length⟩ :: tr, last)

theorem run_of_surfaceCalls {F : Type} [Binary32 F] {codec : SurfaceEventCodec}
    (d : SurfaceDaemon F) (cs : List (SurfaceCall F)) :
    Run (SurfaceDaemonStep codec) d (d.calls codec cs).1 (d.calls codec cs).2 := by
  induction cs generalizing d with
  | nil => exact Run.nil d
  | cons c cs ih =>
    exact Run.cons ⟨rfl, (prefix_iff_eq_append.mp (file_prefix_call c)).symm⟩ (ih _)

/-- The daemon's first start, and requests of one owner to it. -/
def firstStart : SurfaceDaemon ℚ := .start surfaceNumeralCodec .default []

def ownerContext : SurfaceRequestContext :=
  { authorized := true, sessionExists := true, now := 0, stopped := none }

/-- The owner registers and its surface is activated. -/
def activateSampleSurface : List (SurfaceCall ℚ) :=
  [.register true 5 7 8 0, .reserve ownerContext ⟨3, "preview", ⟨5, 7, 8⟩⟩,
    .activate ownerContext ⟨3, "preview", "preview_window", "preview", 1, .visible, ⟨5, 7, 8⟩⟩]

/-- The daemon restarts, the owner registers again and reattaches the surface. -/
def reattachSampleSurface : List (SurfaceCall ℚ) :=
  [.restart .default, .register true 5 9 10 0,
    .reattach ownerContext ⟨3, "preview_window", "preview", 1, .visible, ⟨5, 9, 10⟩⟩ "reattach"]

/-- The two in order, and the first alone. -/
def reattachedRun : List (SurfaceLabel ℚ) × SurfaceDaemon ℚ :=
  firstStart.calls surfaceNumeralCodec (activateSampleSurface ++ reattachSampleSurface)

@[inherit_doc reattachedRun]
def activatedRun : List (SurfaceLabel ℚ) × SurfaceDaemon ℚ :=
  firstStart.calls surfaceNumeralCodec activateSampleSurface

theorem recoversUnreleased_activatedRun :
    RecoversUnreleased activatedRun.1
      (.start surfaceNumeralCodec .default activatedRun.2.recovery.file) := by
  refine (recoversUnreleased_iff _ .default _ _ _ (run_of_surfaceCalls firstStart _)).mpr ?_
  have hattempts : surfaceAttempts activatedRun.1 =
      [⟨.activated sampleSurface, surfaceNumeralCodec.encoded (.activated sampleSurface), true⟩] := by
    decide +kernel
  have hacknowledged : acknowledgedEvents activatedRun.1 = [.activated sampleSurface] := by
    decide +kernel
  rintro key ⟨event, hlast, -⟩
  change lastEvent (acknowledgedEvents activatedRun.1) key = some event at hlast
  change (LeavesWholeLines _ (surfaceAttempts activatedRun.1) ∧
    WithinLimits (surfaceAttempts activatedRun.1)) ∧
      lastEvent ((surfaceAttempts activatedRun.1).map _) key = _
  rw [hacknowledged] at hlast
  rw [hattempts]
  refine ⟨⟨⟨_, [], (append_nil _).symm, ?_, .inl rfl⟩, ?_⟩, ?_⟩
  · decide +kernel
  · constructor <;> decide +kernel
  · by_cases hkey : sampleSurface = key
    · simp [lastEvent, SurfaceRecoveryEvent.key, hkey]
    · simp [lastEvent, SurfaceRecoveryEvent.key, hkey] at hlast

theorem run_reattachedRun :
    Run (SurfaceDaemonStep surfaceNumeralCodec) firstStart reattachedRun.1 reattachedRun.2 :=
  run_of_surfaceCalls firstStart (activateSampleSurface ++ reattachSampleSurface)

theorem lastEvent_acknowledged_reattachedRun :
    lastEvent (acknowledgedEvents reattachedRun.1) sampleSurface =
      some (.reattached sampleSurface) := by
  decide +kernel

theorem lastEvent_attempted_reattachedRun :
    lastEvent ((surfaceAttempts reattachedRun.1).map (·.event)) sampleSurface =
      some (.reattached sampleSurface) := by
  decide +kernel

/-- **A reattached surface is lost at the next restart.**  It was not released,
and its owner finds no recovery debt. -/
theorem reattached_surface_lost :
    Run (SurfaceDaemonStep surfaceNumeralCodec) firstStart reattachedRun.1 reattachedRun.2 ∧
      ¬ RecoversUnreleased reattachedRun.1
        (.start surfaceNumeralCodec .default reattachedRun.2.recovery.file) := by
  refine ⟨run_reattachedRun, fun hrecovers => ?_⟩
  have hactivated := (recoversUnreleased_iff surfaceNumeralCodec .default .default reattachedRun.1
    reattachedRun.2 run_reattachedRun).mp hrecovers sampleSurface
    ⟨_, lastEvent_acknowledged_reattachedRun, by simp⟩
  have hcontra := lastEvent_attempted_reattachedRun.symm.trans hactivated.2
  simp at hcontra

end Localview
