import Localview.ResourceGovernor
import Localview.SurfaceOwner
import Localview.SurfaceRecovery

/-! # Surface resources

The native surfaces of `control/src/resource_runtime.rs` and the reap pass of
`surface_liveness.rs`: reservations a desktop process makes, the claims being
activated, and the live leases, each under its owner.  Every function here is
what one hold of the resource registry's lock does, together with the governor
calls made under it; `SurfaceDaemon` puts them together with the owner leases, the
governor and the recovery journal, and `SurfaceHandlers` into the request
handlers.

The executor binding a released primary surface retires in the bridge is not
part of this state.
-/
namespace Localview

structure SurfaceClaim where
  owner : Uuid
  session : SessionId
  identity : LiveSurfaceIdentity
  deriving DecidableEq

/-- An owner's request for a surface. -/
structure SurfacePendingKey where
  owner : Uuid
  session : SessionId
  request : String
  deriving DecidableEq

/-- The claims by stage. -/
structure SurfaceResourceEntry where
  pending : AssocMap SurfacePendingKey ResourceReservation
  activating : Finset SurfaceClaim
  live : AssocMap SurfaceClaim LiveResourceLease

def SurfaceClaim.sameSurface (claim : SurfaceClaim) (session : SessionId)
    (identity : LiveSurfaceIdentity) : Bool :=
  claim.session = session && claim.identity.surfaceKind = identity.surfaceKind &&
    claim.identity.label = identity.label

/-- What the resource calls of one session manager share. -/
structure SurfaceDaemon (F : Type) where
  owners : SurfaceOwners
  /-- The registry's entry, once there is one. -/
  resources : Option SurfaceResourceEntry
  governor : RuntimeGovernorState F
  recovery : SurfaceRecoveryStore

/-- An entry as it is created. -/
def SurfaceResourceEntry.empty : SurfaceResourceEntry :=
  { pending := .empty, activating := ∅, live := .empty }

namespace SurfaceResourceEntry
variable (entry : SurfaceResourceEntry)

def logicallyClaimed (session : SessionId) (identity : LiveSurfaceIdentity) : Bool :=
  (entry.live.entries.any fun e => e.1.sameSurface session identity) ||
    decide (∃ claim ∈ entry.activating, claim.sameSurface session identity = true)

def ownedByOtherOwner (owner : Uuid) (session : SessionId) (identity : LiveSurfaceIdentity) : Bool :=
  entry.live.entries.any fun e => e.1.owner ≠ owner && e.1.sameSurface session identity

/-- Why a claim is not live. -/
def missingLive (claim : SurfaceClaim) : String :=
  if entry.ownedByOtherOwner claim.owner claim.session claim.identity then
    "surface_owner_fence_mismatch"
  else "surface_owner_incarnation_mismatch"

/-- The claim is being activated no more. -/
def clearActivating (claim : SurfaceClaim) : SurfaceResourceEntry :=
  { entry with activating := entry.activating.erase claim }

def publish (claim : SurfaceClaim) (lease : LiveResourceLease) : SurfaceResourceEntry :=
  { entry.clearActivating claim with live := entry.live.insert claim lease }

end SurfaceResourceEntry

namespace SurfaceDaemon
variable {F : Type} [Binary32 F] (d : SurfaceDaemon F)

/-- `surface_entry_mut` -/
def entry : SurfaceResourceEntry := d.resources.getD .empty

def setEntry (entry : SurfaceResourceEntry) : SurfaceDaemon F := { d with resources := some entry }

/-- Reservations dropped. -/
def dropPending (reservations : List (SurfacePendingKey × ResourceReservation)) :
    SurfaceDaemon F :=
  { d with governor := reservations.foldl (fun governor e => e.2.release governor) d.governor }

/-- Leases dropped. -/
def dropLive (leases : List (SurfaceClaim × LiveResourceLease)) : SurfaceDaemon F :=
  { d with governor := leases.foldl (fun governor e => e.2.release governor) d.governor }

/-- `release_surface_resource_session_for_sessions` -/
def releaseSurfaceResourceSession (session : SessionId) : Nat × SurfaceDaemon F :=
  match d.resources with
  | none => (0, d)
  | some entry =>
      let removed := entry.pending.entries.filter fun e => e.1.session = session
      (removed.length,
        (d.dropPending removed).setEntry { entry with
          pending := entry.pending.retain fun key _ => key.session ≠ session })

/-- `release_surface_resource_owner_for_sessions` -/
def releaseSurfaceResourceOwner (owner : Uuid) : Nat × SurfaceDaemon F :=
  match d.resources with
  | none => (0, d)
  | some entry =>
      let pending := entry.pending.entries.filter fun e => e.1.owner = owner
      let live := entry.live.entries.filter fun e => e.1.owner = owner
      (pending.length + live.length,
        ((d.dropPending pending).dropLive live).setEntry
          { pending := entry.pending.retain fun key _ => key.owner ≠ owner
            activating := entry.activating.filter fun claim => claim.owner ≠ owner
            live := entry.live.retain fun claim _ => claim.owner ≠ owner })

/-- The reservation `reserve_surface_resource` makes. -/
def reservePending (key : SurfacePendingKey) :
    Except (String ⊕ ResourceAdmissionDenial) Unit × SurfaceDaemon F :=
  if (d.entry.pending.get key).isSome then
    (.error (.inl "surface_reservation_already_exists"), d.setEntry d.entry)
  else match d.governor.reserve key.session.display key.request .nativeSurface with
  | (.error denial, governor) => (.error (.inr denial), { d.setEntry d.entry with governor })
  | (.ok reservation, governor) =>
      (.ok (), { d.setEntry { d.entry with
        pending := d.entry.pending.insert key reservation } with governor })

/-- The reservation `cancel_surface_reservation` drops. -/
def cancelPending (key : SurfacePendingKey) : Except String Unit × SurfaceDaemon F :=
  match d.resources with
  | none => (.error "surface_reservation_missing", d)
  | some entry =>
      match entry.pending.get key with
      | none => (.error "surface_reservation_missing", d)
      | some reservation =>
          (.ok (), { d.setEntry { entry with pending := entry.pending.erase key } with
            governor := reservation.release d.governor })

section
variable (claim : SurfaceClaim)

/-- The claim `activate_surface_resource` makes, in place of its reservation. -/
def beginActivation (request : String) :
    Except String ResourceReservation × SurfaceDaemon F :=
  if d.entry.logicallyClaimed claim.session claim.identity then
    (.error "surface_owner_already_live", d.setEntry d.entry)
  else
    let key : SurfacePendingKey := ⟨claim.owner, claim.session, request⟩
    match d.entry.pending.get key with
    | none => (.error "surface_reservation_missing", d.setEntry d.entry)
    | some reservation =>
        (.ok reservation, d.setEntry { d.entry with
          pending := d.entry.pending.erase key
          activating := insert claim d.entry.activating })

/-- The claim `reattach_surface_resource` makes, with a reservation of its own
under the request id `request`. -/
def beginReattach (request : String) :
    Except (String ⊕ ResourceAdmissionDenial) ResourceReservation × SurfaceDaemon F :=
  if d.entry.logicallyClaimed claim.session claim.identity then
    (.error (.inl "surface_owner_already_live"), d.setEntry d.entry)
  else match d.governor.reserve claim.session.display request .nativeSurface with
  | (.error denial, governor) => (.error (.inr denial), { d.setEntry d.entry with governor })
  | (.ok reservation, governor) =>
      (.ok reservation, { d.setEntry { d.entry with
        activating := insert claim d.entry.activating } with governor })

def clearActivatingClaim : SurfaceDaemon F :=
  match d.resources with
  | none => d
  | some entry => d.setEntry (entry.clearActivating claim)

/-- The reservation of a claim becomes a lease; where that fails the claim is
cleared. -/
def activateReservation (visibility : SurfaceVisibility)
    (reservation : ResourceReservation) : Option LiveResourceLease × SurfaceDaemon F :=
  match reservation.activateSurface d.governor claim.identity visibility with
  | (.error _, governor) => (none, { d with governor }.clearActivatingClaim claim)
  | (.ok lease, governor) => (some lease, { d with governor })

/-- A lease whose record failed. -/
def abandonActivation (lease : LiveResourceLease) : SurfaceDaemon F :=
  { d.clearActivatingClaim claim with governor := lease.release d.governor }

/-- A lease that the claim had before is dropped. -/
def publishLive (lease : LiveResourceLease) : SurfaceDaemon F :=
  { d.setEntry (d.entry.publish claim lease) with
    governor := (d.entry.live.get claim).elim d.governor fun replaced => replaced.release d.governor }

/-- The lease `release_surface_resource` takes out and drops. -/
def removeLive : Except String Unit × SurfaceDaemon F :=
  match d.resources with
  | none => (.error "surface_owner_missing", d)
  | some entry =>
      match entry.live.get claim with
      | none => (.error (entry.missingLive claim), d)
      | some lease =>
          (.ok (), { d.setEntry { entry with live := entry.live.erase claim } with
            governor := lease.release d.governor })

/-- What `update_surface_visibility` does to a live lease. -/
def setVisibility (visibility : SurfaceVisibility) :
    Except String Unit × SurfaceDaemon F :=
  match d.resources with
  | none => (.error "surface_owner_missing", d)
  | some entry =>
      match entry.live.get claim with
      | none => (.error (entry.missingLive claim), d)
      | some lease =>
          match lease.setSurfaceVisibility d.governor claim.identity visibility with
          | (.error _, governor) => (.error "surface_visibility_rejected", { d with governor })
          | (.ok (), governor) => (.ok (), { d with governor })

end

/-- A record in the recovery journal; `none` where none is configured. -/
def recordEvent (codec : SurfaceEventCodec) (event : SurfaceRecoveryEvent)
    (stopped : Option (Nat × String)) :
    Option (Except SurfaceRecoveryError Unit) × SurfaceDaemon F :=
  match d.recovery.journal with
  | none => (none, d)
  | some journal =>
      let (result, journal, file) := journal.record codec event stopped d.recovery.file
      (some result, { d with recovery := ⟨file, some journal⟩ })

end SurfaceDaemon

/-! ## What the sections leave alone -/

/-- Only the resources and the governor may differ. -/
structure ResourceFrame {F : Type} (d d' : SurfaceDaemon F) : Prop where
  owners : d'.owners = d.owners
  recovery : d'.recovery = d.recovery

theorem ResourceFrame.refl {F : Type} (d : SurfaceDaemon F) : ResourceFrame d d := ⟨rfl, rfl⟩

namespace SurfaceDaemon
variable {F : Type} (d : SurfaceDaemon F)

theorem recordEvent_none {d : SurfaceDaemon F} {codec : SurfaceEventCodec} {event : SurfaceRecoveryEvent}
    {stopped : Option (Nat × String)} (h : d.recovery.journal = none) :
    d.recordEvent codec event stopped = (none, d) := by
  rw [recordEvent, h]

theorem recordEvent_some {d : SurfaceDaemon F} {codec : SurfaceEventCodec} {event : SurfaceRecoveryEvent}
    {stopped : Option (Nat × String)} {journal journal' : SurfaceRecoveryJournal} {file' : Bytes}
    {result : Except SurfaceRecoveryError Unit} (h : d.recovery.journal = some journal)
    (hrecord : journal.record codec event stopped d.recovery.file = (result, journal', file')) :
    d.recordEvent codec event stopped =
      (some result, { d with recovery := ⟨file', some journal'⟩ }) := by
  simp only [recordEvent, h, hrecord]

theorem releaseSurfaceResourceSession_frame (session : SessionId) :
    ResourceFrame d (d.releaseSurfaceResourceSession session).2 := by
  unfold releaseSurfaceResourceSession
  split <;> exact ⟨rfl, rfl⟩

theorem releaseSurfaceResourceOwner_frame (owner : Uuid) :
    ResourceFrame d (d.releaseSurfaceResourceOwner owner).2 := by
  unfold releaseSurfaceResourceOwner
  split <;> exact ⟨rfl, rfl⟩

theorem cancelPending_frame (key : SurfacePendingKey) :
    ResourceFrame d (d.cancelPending key).2 := by
  unfold cancelPending
  split
  · exact ⟨rfl, rfl⟩
  · split <;> exact ⟨rfl, rfl⟩

section
variable (claim : SurfaceClaim)

theorem beginActivation_frame (request : String) :
    ResourceFrame d (d.beginActivation claim request).2 := by
  simp only [beginActivation]
  split
  · exact ⟨rfl, rfl⟩
  · split <;> exact ⟨rfl, rfl⟩

theorem clearActivatingClaim_frame : ResourceFrame d (d.clearActivatingClaim claim) := by
  unfold clearActivatingClaim
  split <;> exact ⟨rfl, rfl⟩

theorem abandonActivation_frame (lease : LiveResourceLease) :
    ResourceFrame d (d.abandonActivation claim lease) :=
  let hframe := clearActivatingClaim_frame d claim
  ⟨hframe.owners, hframe.recovery⟩

theorem publishLive_frame (lease : LiveResourceLease) :
    ResourceFrame d (d.publishLive claim lease) :=
  ⟨rfl, rfl⟩

theorem removeLive_frame : ResourceFrame d (d.removeLive claim).2 := by
  unfold removeLive
  split
  · exact ⟨rfl, rfl⟩
  · split <;> exact ⟨rfl, rfl⟩

theorem activateReservation_frame (visibility : SurfaceVisibility)
    (reservation : ResourceReservation) :
    ResourceFrame d (d.activateReservation claim visibility reservation).2 := by
  unfold activateReservation
  split
  · next governor _ =>
    have hframe := clearActivatingClaim_frame { d with governor } claim
    exact ⟨hframe.owners, hframe.recovery⟩
  · exact ⟨rfl, rfl⟩

theorem setVisibility_frame (visibility : SurfaceVisibility) :
    ResourceFrame d (d.setVisibility claim visibility).2 := by
  unfold setVisibility
  split
  · exact ⟨rfl, rfl⟩
  · split
    · exact ⟨rfl, rfl⟩
    · split <;> exact ⟨rfl, rfl⟩

end

variable [Binary32 F]

theorem reservePending_frame (key : SurfacePendingKey) :
    ResourceFrame d (d.reservePending key).2 := by
  unfold reservePending
  split
  · exact ⟨rfl, rfl⟩
  · split <;> exact ⟨rfl, rfl⟩

theorem beginReattach_frame (claim : SurfaceClaim) (request : String) :
    ResourceFrame d (d.beginReattach claim request).2 := by
  unfold beginReattach
  split
  · exact ⟨rfl, rfl⟩
  · split <;> exact ⟨rfl, rfl⟩

end SurfaceDaemon

def surfaceIdentity (surfaceKind label : String) (incarnation : Nat) : Option LiveSurfaceIdentity :=
  if validSurfaceName surfaceKind label then some ⟨surfaceKind, label, incarnation⟩ else none

theorem surfaceIdentity_eq_some {surfaceKind label : String} {incarnation : Nat}
    {identity : LiveSurfaceIdentity} (h : surfaceIdentity surfaceKind label incarnation = some identity) :
    identity = ⟨surfaceKind, label, incarnation⟩ := by
  rw [surfaceIdentity] at h
  split at h
  · exact (Option.some.inj h).symm
  · cases h

def validRequestId (value : String) : Bool :=
  !value.isEmpty && value.utf8ByteSize ≤ 160 && !value.toList.any isControl

end Localview
