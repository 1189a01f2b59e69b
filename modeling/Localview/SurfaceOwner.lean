import Localview.AssocMap
import Localview.EarlyReturn
import Localview.Protocol

/-! # Surface owners

The owner leases of `control/src/surface_owner.rs`, for one session manager.  A
desktop process registers under its instance id and gets a lease; operations pin
the lease while they run, heartbeats renew it, and a reap pass removes the leases
that have expired with no operation in flight.

Each call holds the registry's lock once.  Instants are nanoseconds; the ids a
call mints and the time it has read are its parameters.
-/
namespace Localview
open EarlyReturn AssocMap

/-- The nanoseconds of an `Instant`. -/
abbrev Instant := Nat

/-- `SURFACE_OWNER_TTL`: 15 seconds. -/
def surfaceOwnerTtl : Nat := 15 * 1000000000

structure SurfaceOwnerProof where
  (ownerInstanceId bootEpoch ownerLeaseId : Uuid)

structure SurfaceOwnerRegistration where
  (ownerInstanceId bootEpoch ownerLeaseId : Uuid)
  recoveryRequired : Bool
  deriving DecidableEq

/-- Why an owner's proof is refused. -/
inductive SurfaceOwnerError
  | notRegistered
  | bootEpochMismatch
  | leaseMismatch

structure SurfaceOwnerLease where
  ownerLeaseId : Uuid
  lastSeen : Instant
  inFlight : Nat

/-- The leases of one boot. -/
structure SurfaceOwnerEntry where
  bootEpoch : Uuid
  leases : AssocMap Uuid SurfaceOwnerLease

/-- The registry's entry of the session manager, once there is one. -/
abbrev SurfaceOwners := Option SurfaceOwnerEntry

def ownerExpired (lastSeen now : Instant) : Bool :=
  lastSeen ≤ now && surfaceOwnerTtl ≤ now - lastSeen

section
variable (owners : SurfaceOwners)

def SurfaceOwners.lease (owner : Uuid) : Option SurfaceOwnerLease :=
  owners.bind fun entry => entry.leases.get owner

/-- `register_surface_owner_for_sessions_at`: `newEpoch` is minted where there is
no entry yet. -/
def registerSurfaceOwner (ownerInstanceId newEpoch ownerLeaseId : Uuid)
    (recoveryRequired : Bool) (now : Instant) : SurfaceOwnerRegistration × SurfaceOwners :=
  let entry := owners.getD { bootEpoch := newEpoch, leases := .empty }
  let inFlight := (entry.leases.get ownerInstanceId).elim 0 (·.inFlight)
  ({ ownerInstanceId, bootEpoch := entry.bootEpoch, ownerLeaseId, recoveryRequired },
    some { entry with
      leases := entry.leases.insert ownerInstanceId { ownerLeaseId, lastSeen := now, inFlight } })

/-- What a pin and a heartbeat check of a proof: the entry and the lease. -/
def currentLease (proof : SurfaceOwnerProof) (now : Instant) :
    Except SurfaceOwnerError (SurfaceOwnerEntry × SurfaceOwnerLease) := do
  let entry ← okOr owners .notRegistered
  rejectIf (proof.bootEpoch ≠ entry.bootEpoch) .bootEpochMismatch
  let current ← okOr (entry.leases.get proof.ownerInstanceId) .notRegistered
  rejectIf (proof.ownerLeaseId ≠ current.ownerLeaseId) .leaseMismatch
  rejectIf (ownerExpired current.lastSeen now = true) .notRegistered
  return (entry, current)

/-- A lease of an owner replaced. -/
def SurfaceOwnerEntry.setLease (entry : SurfaceOwnerEntry) (owner : Uuid)
    (lease : SurfaceOwnerLease) : SurfaceOwners :=
  some { entry with leases := entry.leases.insert owner lease }

/-- `pin_surface_owner_for_sessions_at` -/
def pinSurfaceOwner (proof : SurfaceOwnerProof) (now : Instant) :
    Except SurfaceOwnerError Unit × SurfaceOwners :=
  match currentLease owners proof now with
  | .error error => (.error error, owners)
  | .ok (entry, current) =>
      (.ok (), entry.setLease proof.ownerInstanceId
        { current with inFlight := min (current.inFlight + 1) u64Max })

/-- The drop of a `SurfaceOwnerOperationGuard`. -/
def unpinSurfaceOwner (ownerInstanceId : Uuid) : SurfaceOwners :=
  match owners with
  | none => none
  | some entry =>
      match entry.leases.get ownerInstanceId with
      | none => owners
      | some current =>
          entry.setLease ownerInstanceId { current with inFlight := current.inFlight - 1 }

/-- `heartbeat_surface_owner_for_sessions_at` -/
def heartbeatSurfaceOwner (proof : SurfaceOwnerProof) (now : Instant) :
    Except SurfaceOwnerError Unit × SurfaceOwners :=
  match currentLease owners proof now with
  | .error error => (.error error, owners)
  | .ok (entry, current) =>
      (.ok (), entry.setLease proof.ownerInstanceId { current with lastSeen := now })

/-- The lease is taken by a reap pass. -/
def SurfaceOwnerLease.reapable (lease : SurfaceOwnerLease) (now : Instant) : Bool :=
  ownerExpired lease.lastSeen now && lease.inFlight == 0

/-- `reap_expired_surface_owners_for_sessions_at`: the owners whose leases are
removed. -/
def reapExpiredSurfaceOwners (now : Instant) :
    List Uuid × SurfaceOwners :=
  match owners with
  | none => ([], none)
  | some entry =>
      ((entry.leases.entries.filter fun e => e.2.reapable now).map Prod.fst,
        some { entry with leases := entry.leases.retain fun _ lease => !lease.reapable now })

end

/-! ## Leases after each call -/

section
variable {owners : SurfaceOwners} {entry : SurfaceOwnerEntry} {current lease : SurfaceOwnerLease}
  {proof : SurfaceOwnerProof} {owner owner' newEpoch ownerLeaseId : Uuid} {now : Instant}

theorem lease_setLease : (entry.setLease owner lease).lease owner' =
      if owner' = owner then some lease else entry.leases.get owner' :=
  entry.leases.get_insert

theorem currentLease_eq_ok : currentLease owners proof now = .ok (entry, current) ↔
      owners = some entry ∧ proof.bootEpoch = entry.bootEpoch ∧
        entry.leases.get proof.ownerInstanceId = some current ∧
          proof.ownerLeaseId = current.ownerLeaseId ∧
            ownerExpired current.lastSeen now = false := by
  simp only [currentLease, okOr_bind_eq_ok, rejectIf_bind_eq_ok, Decidable.not_not,
    Bool.not_eq_true]
  constructor
  · rintro ⟨e, rfl, hepoch, c, hget, hlease, hfresh, hok⟩
    obtain ⟨rfl, rfl⟩ := Prod.mk.inj (Except.ok.inj hok)
    exact ⟨rfl, hepoch, hget, hlease, hfresh⟩
  · rintro ⟨rfl, hepoch, hget, hlease, hfresh⟩
    exact ⟨entry, rfl, hepoch, current, hget, hlease, hfresh, rfl⟩

theorem lease_of_currentLease (h : currentLease owners proof now = .ok (entry, current)) :
    owners.lease proof.ownerInstanceId = some current := by
  obtain ⟨rfl, -, hget, -⟩ := currentLease_eq_ok.mp h
  exact hget

theorem lease_registerSurfaceOwner (recoveryRequired : Bool) :
    (registerSurfaceOwner owners owner newEpoch ownerLeaseId recoveryRequired now).2.lease owner' =
      if owner' = owner then
        some ⟨ownerLeaseId, now, (owners.lease owner).elim 0 (·.inFlight)⟩
      else owners.lease owner' := by
  rcases owners with _ | entry
  · exact get_insert _
  · exact get_insert _

/-- A lease replaced where the proof is current makes no lease for another owner. -/
theorem lease_setLease_none (hcurrent : currentLease owners proof now = .ok (entry, current))
    (h : owners.lease owner = none) :
    (entry.setLease proof.ownerInstanceId lease).lease owner = none := by
  have hproof := lease_of_currentLease hcurrent
  obtain ⟨rfl, -⟩ := currentLease_eq_ok.mp hcurrent
  have hne : owner ≠ proof.ownerInstanceId := fun heq => by
    rw [heq, hproof] at h
    cases h
  exact (lease_setLease.trans (if_neg hne)).trans h

theorem lease_pinSurfaceOwner_none (h : owners.lease owner = none) :
    (pinSurfaceOwner owners proof now).2.lease owner = none := by
  rw [pinSurfaceOwner]
  rcases hcurrent : currentLease owners proof now with error | ⟨entry, current⟩
  · exact h
  · exact lease_setLease_none hcurrent h

theorem lease_heartbeatSurfaceOwner_none (h : owners.lease owner = none) :
    (heartbeatSurfaceOwner owners proof now).2.lease owner = none := by
  rw [heartbeatSurfaceOwner]
  rcases hcurrent : currentLease owners proof now with error | ⟨entry, current⟩
  · exact h
  · exact lease_setLease_none hcurrent h

theorem lease_unpinSurfaceOwner_none (h : owners.lease owner = none) :
    (unpinSurfaceOwner owners owner').lease owner = none := by
  rcases owners with _ | entry
  · exact h
  · simp only [unpinSurfaceOwner]
    rcases hget : entry.leases.get owner' with _ | current
    · exact h
    · have hne : owner ≠ owner' := fun heq => by
        rw [heq] at h
        exact absurd (h.symm.trans hget) (by simp)
      exact (lease_setLease.trans (if_neg hne)).trans h

theorem lease_reapExpiredSurfaceOwners : (reapExpiredSurfaceOwners owners now).2.lease owner =
      (owners.lease owner).filter fun lease => !lease.reapable now := by
  rcases owners with _ | entry
  · rfl
  · exact get_retain _ _

/-- A reap pass takes the owners whose leases it removes. -/
theorem lease_of_taken (h : owner ∈ (reapExpiredSurfaceOwners owners now).1) :
    ∃ lease, owners.lease owner = some lease ∧ lease.reapable now = true := by
  rcases owners with _ | entry
  · cases h
  · obtain ⟨⟨_, lease⟩, hmem, rfl⟩ := List.mem_map.mp h
    obtain ⟨hmem, hreapable⟩ := List.mem_filter.mp hmem
    exact ⟨lease, entry.leases.mem_entries.mp hmem, hreapable⟩

end

end Localview
