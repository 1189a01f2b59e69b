import Localview.SurfaceResources

/-! # The surface request handlers

The handlers of `control/src/resource_runtime.rs` that change surfaces, each from
its request to its reply.  A handler pins the owner's lease for as long as it
runs.  Here a handler runs without another in between; what may happen between
its parts is the subject of `SurfaceLiveness`.
-/
namespace Localview

/-- What a surface handler answers. -/
inductive SurfaceReply
  | noContent
  | registered (registration : SurfaceOwnerRegistration)
  | denied
  | badRequest (error : String)
  | notFound (error : String)
  | conflict (error : String)
  | unavailable (error : String)
  | tooManyRequests (denial : ResourceAdmissionDenial)
  deriving DecidableEq

def surfaceOwnerConflict : SurfaceOwnerError → SurfaceReply
  | .notRegistered => .conflict "surface_owner_not_registered"
  | .bootEpochMismatch => .conflict "surface_owner_boot_epoch_mismatch"
  | .leaseMismatch => .conflict "surface_owner_lease_mismatch"

def surfaceRecoveryUnavailable : SurfaceReply := .unavailable "surface_recovery_journal_unavailable"

/-- What a handler finds beside the state: whether the request is authorized,
whether its session exists, the time at the pin, and where a record it makes
stops. -/
structure SurfaceRequestContext where
  (authorized sessionExists : Bool)
  now : Instant
  stopped : Option (Nat × String)

/-- Asks for a surface's resources. -/
structure SurfaceReserveRequest where
  sessionId : SessionId
  requestId : String
  proof : SurfaceOwnerProof

/-- Makes a reserved surface live. -/
structure SurfaceActivateRequest where
  sessionId : SessionId
  (requestId surfaceKind label : String)
  incarnation : Nat
  visibility : SurfaceVisibility
  proof : SurfaceOwnerProof

/-- Takes a surface over after a restart. -/
structure SurfaceReattachRequest where
  sessionId : SessionId
  (surfaceKind label : String)
  incarnation : Nat
  visibility : SurfaceVisibility
  proof : SurfaceOwnerProof

/-- Gives a surface up. -/
structure SurfaceReleaseRequest where
  sessionId : SessionId
  (surfaceKind label : String)
  incarnation : Nat
  proof : SurfaceOwnerProof

/-- A claim's key in the recovery journal. -/
def SurfaceClaim.recoveryKey (claim : SurfaceClaim) : SurfaceRecoveryKey :=
  { sessionId := claim.session, surfaceKind := claim.identity.surfaceKind
    label := claim.identity.label, incarnation := claim.identity.incarnation
    ownerInstanceId := claim.owner }

namespace SurfaceDaemon
variable {F : Type} [Binary32 F] (d : SurfaceDaemon F)

/-- Run a handler's body with the owner pinned. -/
def withPin (context : SurfaceRequestContext) (proof : SurfaceOwnerProof)
    (body : SurfaceDaemon F → SurfaceReply × SurfaceDaemon F) : SurfaceReply × SurfaceDaemon F :=
  if context.authorized = false then (.denied, d)
  else match pinSurfaceOwner d.owners proof context.now with
  | (.error error, _) => (surfaceOwnerConflict error, d)
  | (.ok (), owners) =>
      let (reply, d) := body { d with owners }
      (reply, { d with owners := unpinSurfaceOwner d.owners proof.ownerInstanceId })

def reserveSurfaceResource (context : SurfaceRequestContext) (request : SurfaceReserveRequest) :
    SurfaceReply × SurfaceDaemon F :=
  d.withPin context request.proof fun d =>
    if context.sessionExists = false then (.notFound "surface_session_not_found", d)
    else if validRequestId request.requestId = false then
      (.badRequest "invalid_surface_request_id", d)
    else match d.reservePending
        ⟨request.proof.ownerInstanceId, request.sessionId, request.requestId⟩ with
    | (.error (.inl error), d) => (.conflict error, d)
    | (.error (.inr denial), d) => (.tooManyRequests denial, d)
    | (.ok (), d) => (.noContent, d)

def cancelSurfaceReservation (context : SurfaceRequestContext) (request : SurfaceReserveRequest) :
    SurfaceReply × SurfaceDaemon F :=
  d.withPin context request.proof fun d =>
    if context.sessionExists = false then (.notFound "surface_session_not_found", d)
    else if validRequestId request.requestId = false then
      (.badRequest "invalid_surface_request_id", d)
    else match d.cancelPending
        ⟨request.proof.ownerInstanceId, request.sessionId, request.requestId⟩ with
    | (.error error, d) => (.conflict error, d)
    | (.ok (), d) => (.noContent, d)

/-- What both activations do once they have a reservation for the claim. -/
def activateClaim (codec : SurfaceEventCodec) (stopped : Option (Nat × String))
    (claim : SurfaceClaim) (visibility : SurfaceVisibility) (event : SurfaceRecoveryEvent)
    (reservation : ResourceReservation) : SurfaceReply × SurfaceDaemon F :=
  match d.activateReservation claim visibility reservation with
  | (none, d) => (.conflict "surface_activation_rejected", d)
  | (some lease, d) =>
      match d.recordEvent codec event stopped with
      | (some (.ok ()), d) => (.noContent, d.publishLive claim lease)
      | (_, d) => (surfaceRecoveryUnavailable, d.abandonActivation claim lease)

/-- What both activations check of the surface a request names: the claim and
the journal. -/
def checkClaim (session : SessionId) (surfaceKind label : String) (incarnation : Nat)
    (owner : Uuid) : Except SurfaceReply (SurfaceClaim × SurfaceRecoveryJournal) :=
  if incarnation = 0 then .error (.badRequest "invalid_surface_identity")
  else match surfaceIdentity surfaceKind label incarnation with
  | none => .error (.badRequest "invalid_surface_identity")
  | some identity =>
      match d.recovery.journal with
      | none => .error surfaceRecoveryUnavailable
      | some journal =>
          let claim : SurfaceClaim := ⟨owner, session, identity⟩
          match claim.recoveryKey.new with
          | .error _ => .error (.badRequest "invalid_surface_identity")
          | .ok _ => .ok (claim, journal)

section
variable (codec : SurfaceEventCodec) (context : SurfaceRequestContext)

def activateSurfaceResource (request : SurfaceActivateRequest) : SurfaceReply × SurfaceDaemon F :=
  d.withPin context request.proof fun d =>
    match d.checkClaim request.sessionId request.surfaceKind request.label request.incarnation
        request.proof.ownerInstanceId with
    | .error reply => (reply, d)
    | .ok (claim, _) =>
        match d.beginActivation claim request.requestId with
        | (.error error, d) => (.conflict error, d)
        | (.ok reservation, d) =>
            d.activateClaim codec context.stopped claim request.visibility
              (.activated claim.recoveryKey) reservation

/-- `reattach_surface_resource`; `requestId` is the id it mints. -/
def reattachSurfaceResource
    (request : SurfaceReattachRequest) (requestId : String) : SurfaceReply × SurfaceDaemon F :=
  d.withPin context request.proof fun d =>
    if context.sessionExists = false then (.notFound "surface_session_not_found", d)
    else match d.checkClaim request.sessionId request.surfaceKind request.label request.incarnation
        request.proof.ownerInstanceId with
    | .error reply => (reply, d)
    | .ok (claim, journal) =>
        if journal.outstandingExact claim.recoveryKey = false then
          (.conflict "surface_recovery_debt_missing", d)
        else match d.beginReattach claim requestId with
        | (.error (.inl error), d) => (.conflict error, d)
        | (.error (.inr denial), d) => (.tooManyRequests denial, d)
        | (.ok reservation, d) =>
            d.activateClaim codec context.stopped claim request.visibility
              (.reattached claim.recoveryKey) reservation

def updateSurfaceVisibility (context : SurfaceRequestContext) (request : SurfaceReattachRequest) :
    SurfaceReply × SurfaceDaemon F :=
  d.withPin context request.proof fun d =>
    match surfaceIdentity request.surfaceKind request.label request.incarnation with
    | none => (.badRequest "invalid_surface_identity", d)
    | some identity =>
        match d.setVisibility ⟨request.proof.ownerInstanceId, request.sessionId, identity⟩
            request.visibility with
        | (.error error, d) => (.conflict error, d)
        | (.ok (), d) => (.noContent, d)

def releaseSurfaceResource (request : SurfaceReleaseRequest) : SurfaceReply × SurfaceDaemon F :=
  d.withPin context request.proof fun d =>
    match surfaceIdentity request.surfaceKind request.label request.incarnation with
    | none => (.badRequest "invalid_surface_identity", d)
    | some identity =>
        let claim : SurfaceClaim := ⟨request.proof.ownerInstanceId, request.sessionId, identity⟩
        match d.removeLive claim with
        | (.error error, d) => (.conflict error, d)
        | (.ok (), d) =>
            match claim.recoveryKey.new with
            | .error _ => (.badRequest "invalid_surface_identity", d)
            | .ok key =>
                match d.recordEvent codec (.released key) context.stopped with
                | (some (.ok ()), d) => (.noContent, d)
                | (_, d) => (surfaceRecoveryUnavailable, d)

end

/-- `reap_expired_surface_owner_resources_for_sessions_at`: how many resources are
released. -/
def reapExpiredSurfaceOwnerResources (now : Instant) : Nat × SurfaceDaemon F :=
  let (expired, owners) := reapExpiredSurfaceOwners d.owners now
  expired.foldl (fun (released, d) owner =>
    let (removed, d) := d.releaseSurfaceResourceOwner owner
    (released + removed, d)) (0, { d with owners })

def registerSurfaceOwnerRequest (authorized : Bool) (ownerInstanceId newEpoch ownerLeaseId : Uuid)
    (now : Instant) : SurfaceReply × SurfaceDaemon F :=
  if authorized = false then (.denied, d)
  else if ownerInstanceId = 0 then (.badRequest "invalid_surface_owner_instance", d)
  else
    let d := (d.reapExpiredSurfaceOwnerResources now).2
    let recoveryRequired := d.recovery.journal.any (·.hasOutstandingForOwner ownerInstanceId)
    let (registration, owners) :=
      registerSurfaceOwner d.owners ownerInstanceId newEpoch ownerLeaseId recoveryRequired now
    (.registered registration, { d with owners })

def heartbeatSurfaceOwnerRequest (authorized : Bool) (proof : SurfaceOwnerProof) (now : Instant) :
    SurfaceReply × SurfaceDaemon F :=
  if authorized = false then (.denied, d)
  else match heartbeatSurfaceOwner d.owners proof now with
  | (.error error, owners) => (surfaceOwnerConflict error, { d with owners })
  | (.ok (), owners) => (.noContent, { d with owners })

/-- The daemon starts: the journal is opened on the file, everything else anew. -/
def start (codec : SurfaceEventCodec) (budget : ResourceBudget F) (file : Bytes) :
    SurfaceDaemon F :=
  { owners := none, resources := none, governor := .new budget
    recovery := ⟨file, (SurfaceRecoveryJournal.openJournal codec none file).toOption⟩ }

end SurfaceDaemon

end Localview
