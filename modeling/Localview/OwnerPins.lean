import Localview.SurfaceOwner
import Localview.StateRun

/-! # Surface owner pins

The owner registry together with the operation guards that are live.  A guard is
granted under one lease and may outlive it: its owner may register again, its
lease may expire.  Dropping it counts down the lease its owner has by then.

`Pinned` says that each lease counts the live guards of its owner, and that an
owner without a lease has none: so a reap pass finds a guarded lease in use, and
no decrement is ever cut off at zero.  `LeasesRecorded` ties each lease to the last
registration and the last renewal of its owner.
-/
namespace Localview
open StateRun List

/-- The registry and the guards that pin it. -/
structure PinnedOwners where
  owners : SurfaceOwners
  /-- The owners of the live guards, by the number of the guard. -/
  guards : AssocMap Nat Uuid

/-- A call of the owner registry. -/
inductive OwnerCall
  | register (ownerInstanceId newEpoch ownerLeaseId : Uuid) (recoveryRequired : Bool)
      (now : Instant)
  /-- An operation begins, under a guard of a new number. -/
  | pin (guard : Nat) (proof : SurfaceOwnerProof) (now : Instant)
  /-- The operation is over and its guard is dropped. -/
  | finish (guard : Nat)
  | heartbeat (proof : SurfaceOwnerProof) (now : Instant)
  | reap (now : Instant)

/-- What a call of the registry returns. -/
inductive OwnerAnswer
  | registered (registration : SurfaceOwnerRegistration)
  | pinned (result : Except SurfaceOwnerError Unit)
  | finished
  | renewed (result : Except SurfaceOwnerError Unit)
  | reaped (taken : List Uuid)

/-- `isize::MAX`: past this many references `Arc::clone` aborts the process. -/
def arcMax : Nat := 2 ^ 63 - 1

namespace PinnedOwners

def new : PinnedOwners := { owners := none, guards := .empty }

def liveGuards (s : PinnedOwners) (owner : Uuid) : Nat :=
  s.guards.count fun guarded => decide (guarded = owner)

/-- Make a call.  Each guard holds a reference to the session manager. -/
def call (s : PinnedOwners) : OwnerCall → Option (OwnerAnswer × PinnedOwners)
  | .register owner newEpoch ownerLeaseId recoveryRequired now =>
      let (registration, owners) :=
        registerSurfaceOwner s.owners owner newEpoch ownerLeaseId recoveryRequired now
      some (.registered registration, { s with owners })
  | .pin guard proof now =>
      if (s.guards.get guard).isSome ∨ arcMax ≤ s.guards.size then none
      else match pinSurfaceOwner s.owners proof now with
      | (.error error, owners) => some (.pinned (.error error), { s with owners })
      | (.ok (), owners) =>
          some (.pinned (.ok ()),
            { owners, guards := s.guards.insert guard proof.ownerInstanceId })
  | .finish guard =>
      (s.guards.get guard).map fun owner =>
        (.finished,
          { owners := unpinSurfaceOwner s.owners owner, guards := s.guards.erase guard })
  | .heartbeat proof now =>
      let (result, owners) := heartbeatSurfaceOwner s.owners proof now
      some (.renewed result, { s with owners })
  | .reap now =>
      let (taken, owners) := reapExpiredSurfaceOwners s.owners now
      some (.reaped taken, { s with owners })

end PinnedOwners

abbrev OwnerLabel := OwnerCall × OwnerAnswer

def OwnerStep (s : PinnedOwners) (l : OwnerLabel) (s' : PinnedOwners) : Prop :=
  s.call l.1 = some (l.2, s')

/-- A call is refused; or registers, pins, unpins, renews or reaps. -/
inductive OwnerEffect (s : PinnedOwners) : OwnerLabel → PinnedOwners → Prop
  | registered (owner newEpoch ownerLeaseId : Uuid) (recoveryRequired : Bool) (now : Instant) :
      OwnerEffect s
        (.register owner newEpoch ownerLeaseId recoveryRequired now,
          .registered (registerSurfaceOwner s.owners owner newEpoch ownerLeaseId
            recoveryRequired now).1)
        { s with owners :=
            (registerSurfaceOwner s.owners owner newEpoch ownerLeaseId recoveryRequired now).2 }
  | pinRefused (guard : Nat) (proof : SurfaceOwnerProof) (now : Instant)
      (error : SurfaceOwnerError) : OwnerEffect s (.pin guard proof now, .pinned (.error error)) s
  | pinned (guard : Nat) (proof : SurfaceOwnerProof) (now : Instant)
      (entry : SurfaceOwnerEntry) (current : SurfaceOwnerLease) :
      s.guards.get guard = none → s.guards.size < arcMax →
      currentLease s.owners proof now = .ok (entry, current) →
      OwnerEffect s (.pin guard proof now, .pinned (.ok ()))
        { owners := entry.setLease proof.ownerInstanceId
            { current with inFlight := min (current.inFlight + 1) u64Max }
          guards := s.guards.insert guard proof.ownerInstanceId }
  | finished (guard : Nat) (owner : Uuid) : s.guards.get guard = some owner →
      OwnerEffect s (.finish guard, .finished)
        { owners := unpinSurfaceOwner s.owners owner, guards := s.guards.erase guard }
  | renewRefused (proof : SurfaceOwnerProof) (now : Instant) (error : SurfaceOwnerError) :
      OwnerEffect s (.heartbeat proof now, .renewed (.error error)) s
  | renewed (proof : SurfaceOwnerProof) (now : Instant) (entry : SurfaceOwnerEntry)
      (current : SurfaceOwnerLease) : currentLease s.owners proof now = .ok (entry, current) →
      OwnerEffect s (.heartbeat proof now, .renewed (.ok ()))
        { s with owners := entry.setLease proof.ownerInstanceId { current with lastSeen := now } }
  | reaped (now : Instant) :
      OwnerEffect s (.reap now, .reaped (reapExpiredSurfaceOwners s.owners now).1)
        { s with owners := (reapExpiredSurfaceOwners s.owners now).2 }

section
variable {s s' : PinnedOwners} {l : OwnerLabel}

/-- Every step is one of these effects. -/
theorem owner_effect (hs : OwnerStep s l s') : OwnerEffect s l s' := by
  obtain ⟨c, answer⟩ := l
  unfold OwnerStep at hs
  cases c with
  | register owner newEpoch ownerLeaseId recoveryRequired now =>
    cases hs
    exact .registered owner newEpoch ownerLeaseId recoveryRequired now
  | pin guard proof now =>
    simp only [PinnedOwners.call] at hs
    by_cases hroom : (s.guards.get guard).isSome ∨ arcMax ≤ s.guards.size
    · rw [if_pos hroom] at hs
      cases hs
    · rw [if_neg hroom, pinSurfaceOwner] at hs
      obtain ⟨hnew, hsize⟩ := not_or.mp hroom
      rcases hcurrent : currentLease s.owners proof now with error | ⟨entry, current⟩
      · rw [hcurrent] at hs
        cases hs
        exact .pinRefused guard proof now error
      · rw [hcurrent] at hs
        cases hs
        exact .pinned guard proof now entry current (by simpa using hnew) (by omega) hcurrent
  | finish guard =>
    obtain ⟨owner, hguard, heq⟩ := Option.map_eq_some_iff.mp hs
    cases heq
    exact .finished guard owner hguard
  | heartbeat proof now =>
    simp only [PinnedOwners.call, heartbeatSurfaceOwner] at hs
    rcases hcurrent : currentLease s.owners proof now with error | ⟨entry, current⟩
    · rw [hcurrent] at hs
      cases hs
      exact .renewRefused proof now error
    · rw [hcurrent] at hs
      cases hs
      exact .renewed proof now entry current hcurrent
  | reap now =>
    cases hs
    exact .reaped now

end

/-! ## Guards are counted -/

section
variable {s s' : PinnedOwners} {l : OwnerLabel} {owner owner' : Uuid} {guard : Nat}

/-- **Each lease counts the live guards of its owner.** -/
structure Pinned (s : PinnedOwners) : Prop where
  counted : ∀ owner lease, s.owners.lease owner = some lease → lease.inFlight = s.liveGuards owner
  leased : ∀ owner, s.owners.lease owner = none → s.liveGuards owner = 0

theorem liveGuards_le_size (s : PinnedOwners) (owner : Uuid) :
    s.liveGuards owner ≤ s.guards.size := countP_le_length

theorem liveGuards_insert (owners : SurfaceOwners) (hnew : s.guards.get guard = none) :
    PinnedOwners.liveGuards ⟨owners, s.guards.insert guard owner⟩ owner' =
      s.liveGuards owner' + (decide (owner = owner')).toNat :=
  s.guards.count_insert_new _ hnew

theorem liveGuards_erase (owners : SurfaceOwners) (hguard : s.guards.get guard = some owner) :
    PinnedOwners.liveGuards ⟨owners, s.guards.erase guard⟩ owner' +
      (decide (owner = owner')).toNat = s.liveGuards owner' := by
  have herase := s.guards.count_erase (k := guard) fun guarded => decide (guarded = owner')
  rwa [hguard, Option.any_some] at herase

theorem lease_unpinSurfaceOwner {owners : SurfaceOwners} :
    (unpinSurfaceOwner owners owner).lease owner' =
      (owners.lease owner').map fun lease =>
        if owner' = owner then { lease with inFlight := lease.inFlight - 1 } else lease := by
  rcases owners with _ | entry
  · rfl
  · show (unpinSurfaceOwner (some entry) owner).lease owner' = (entry.leases.get owner').map _
    simp only [unpinSurfaceOwner]
    rcases hget : entry.leases.get owner with _ | current
    · by_cases howner : owner' = owner
      · rw [howner, hget]
        exact hget
      · simp only [if_neg howner, Option.map_id']
        rfl
    · rw [lease_setLease]
      by_cases howner : owner' = owner
      · rw [if_pos howner, howner, hget]
        simp
      · rw [if_neg howner]
        simp only [if_neg howner, Option.map_id']

theorem Pinned.lease_of_guard (h : Pinned s) (hguard : 0 < s.liveGuards owner) :
    ∃ lease, s.owners.lease owner = some lease ∧ 0 < lease.inFlight := by
  cases hlease : s.owners.lease owner with
  | none =>
    have hzero := h.leased owner hlease
    omega
  | some lease => exact ⟨lease, rfl, (h.counted owner lease hlease).symm ▸ hguard⟩

theorem pinned_new : Pinned .new where
  counted := by
    intro owner lease h
    cases h
  leased := fun _ _ => rfl

/-- **Every call keeps the counts.** -/
theorem pinned_step (h : Pinned s) (hs : OwnerStep s l s') : Pinned s' := by
  cases owner_effect hs with
  | pinRefused => exact h
  | renewRefused => exact h
  | registered owner newEpoch ownerLeaseId recoveryRequired now =>
    constructor
    · intro owner' lease hlease
      rw [lease_registerSurfaceOwner] at hlease
      by_cases howner : owner' = owner
      · -- the new lease takes over the count of the one before it
        rw [if_pos howner] at hlease
        cases hlease
        rw [howner]
        cases hold : s.owners.lease owner with
        | none => exact (h.leased owner hold).symm
        | some old => exact h.counted owner old hold
      · rw [if_neg howner] at hlease
        exact h.counted owner' lease hlease
    · intro owner' hnone
      rw [lease_registerSurfaceOwner] at hnone
      rcases ite_eq_iff.mp hnone with ⟨howner, hnone⟩ | ⟨howner, hnone⟩
      · cases hnone
      · exact h.leased owner' hnone
  | pinned guard proof now entry current hnew hsize hcurrent =>
    have hlease := lease_of_currentLease hcurrent
    obtain ⟨howners, -⟩ := currentLease_eq_ok.mp hcurrent
    constructor
    · intro owner' lease hget
      rw [lease_setLease] at hget
      rw [liveGuards_insert _ hnew]
      rcases ite_eq_iff.mp hget with ⟨howner, hget⟩ | ⟨howner, hget⟩
      · cases hget
        have hcount := h.counted _ current hlease
        have hroom := liveGuards_le_size s proof.ownerInstanceId
        have hmax : arcMax < u64Max := by decide
        rw [howner, decide_eq_true rfl]
        show min (current.inFlight + 1) u64Max = _ + 1
        omega
      · rw [decide_eq_false (Ne.symm howner)]
        exact h.counted owner' lease (howners ▸ hget)
    · intro owner' hnone
      have hold : s.owners.lease owner' = none := by
        rw [lease_setLease] at hnone
        split_ifs at hnone
        exact howners ▸ hnone
      have hother : proof.ownerInstanceId ≠ owner' := by
        rintro rfl
        rw [hlease] at hold
        cases hold
      rw [liveGuards_insert _ hnew, decide_eq_false hother]
      exact h.leased owner' hold
  | finished guard owner hguard =>
    constructor
    · intro owner' lease hlease
      rw [lease_unpinSurfaceOwner] at hlease
      obtain ⟨old, hold, rfl⟩ := Option.map_eq_some_iff.mp hlease
      have hcount := h.counted owner' old hold
      have herase : PinnedOwners.liveGuards
          ⟨unpinSurfaceOwner s.owners owner, s.guards.erase guard⟩ owner' +
            (decide (owner = owner')).toNat = s.liveGuards owner' :=
        liveGuards_erase (unpinSurfaceOwner s.owners owner) hguard
      by_cases howner : owner' = owner
      · rw [decide_eq_true howner.symm] at herase
        rw [if_pos howner]
        show old.inFlight - 1 = _
        have hone : true.toNat = 1 := rfl
        omega
      · rw [decide_eq_false (Ne.symm howner)] at herase
        rw [if_neg howner, hcount]
        exact herase.symm
    · intro owner' hnone
      rw [lease_unpinSurfaceOwner, Option.map_eq_none_iff] at hnone
      have hzero := h.leased owner' hnone
      have herase : PinnedOwners.liveGuards
          ⟨unpinSurfaceOwner s.owners owner, s.guards.erase guard⟩ owner' +
            (decide (owner = owner')).toNat = s.liveGuards owner' :=
        liveGuards_erase (unpinSurfaceOwner s.owners owner) hguard
      omega
  | renewed proof now entry current hcurrent =>
    have hlease := lease_of_currentLease hcurrent
    obtain ⟨howners, -⟩ := currentLease_eq_ok.mp hcurrent
    constructor
    · intro owner' lease hget
      rw [lease_setLease] at hget
      rcases ite_eq_iff.mp hget with ⟨howner, hget⟩ | ⟨howner, hget⟩
      · cases hget
        rw [howner]
        exact h.counted _ current hlease
      · exact h.counted owner' lease (howners ▸ hget)
    · intro owner' hnone
      rw [lease_setLease] at hnone
      split_ifs at hnone
      exact h.leased owner' (howners ▸ hnone)
  | reaped now =>
    constructor
    · intro owner' lease hlease
      rw [lease_reapExpiredSurfaceOwners, Option.filter_eq_some_iff] at hlease
      exact h.counted owner' lease hlease.1
    · intro owner' hnone
      rw [lease_reapExpiredSurfaceOwners] at hnone
      cases hold : s.owners.lease owner' with
      | none => exact h.leased owner' hold
      | some lease =>
        -- only a lease that counts no guard is taken
        rw [hold, Option.filter_some] at hnone
        split_ifs at hnone with hkept
        have hreapable : lease.reapable now = true := by simpa using hkept
        have hidle : lease.inFlight = 0 := by
          simpa using (Bool.and_eq_true_iff.mp hreapable).2
        exact (h.counted owner' lease hold).symm.trans hidle

end

/-! ## Leases and the calls that made them -/

/-- The registration of an owner that a call made. -/
def registrationOf (owner : Uuid) (l : OwnerLabel) : Option SurfaceOwnerRegistration :=
  match l.2 with
  | .registered registration =>
      if registration.ownerInstanceId = owner then some registration else none
  | _ => none

/-- When a call registered an owner or renewed its lease. -/
def renewalOf (owner : Uuid) (l : OwnerLabel) : Option Instant :=
  match l with
  | (.register owner' _ _ _ now, _) => if owner' = owner then some now else none
  | (.heartbeat proof now, .renewed (.ok ())) =>
      if proof.ownerInstanceId = owner then some now else none
  | _ => none

def mintedLeaseIds (tr : List OwnerLabel) : List Uuid :=
  tr.filterMap fun l => match l.2 with
    | .registered registration => some registration.ownerLeaseId
    | _ => none

/-- What a registration lets its owner present. -/
def SurfaceOwnerRegistration.proof (registration : SurfaceOwnerRegistration) :
    SurfaceOwnerProof :=
  { ownerInstanceId := registration.ownerInstanceId, bootEpoch := registration.bootEpoch
    ownerLeaseId := registration.ownerLeaseId }

section
variable {s s' : PinnedOwners} {l : OwnerLabel} {tr : List OwnerLabel} {owner owner' : Uuid}

/-- **Each lease is of the last registration of its owner**, last seen when the
owner last registered or renewed it. -/
structure LeasesRecorded (tr : List OwnerLabel) (s : PinnedOwners) : Prop where
  seen : ∀ owner lease, s.owners.lease owner = some lease →
    latest (renewalOf owner) tr = some lease.lastSeen
  registered : ∀ owner lease, s.owners.lease owner = some lease →
    ∃ registration, latest (registrationOf owner) tr = some registration ∧
      registration.ownerLeaseId = lease.ownerLeaseId ∧
        s.owners.map (·.bootEpoch) = some registration.bootEpoch

/-- A call that registers and renews nobody keeps the record of the leases that
are still there. -/
theorem LeasesRecorded.keep (h : LeasesRecorded tr s) (hregistration : ∀ owner, registrationOf owner l = none)
    (hrenewal : ∀ owner, renewalOf owner l = none)
    (hepoch : s'.owners.map (·.bootEpoch) = s.owners.map (·.bootEpoch))
    (hlease : ∀ owner lease, s'.owners.lease owner = some lease →
      ∃ old, s.owners.lease owner = some old ∧ old.ownerLeaseId = lease.ownerLeaseId ∧
        old.lastSeen = lease.lastSeen) : LeasesRecorded (tr ++ [l]) s' where
  seen := by
    intro owner lease hget
    obtain ⟨old, hold, -, hsame⟩ := hlease owner lease hget
    rw [latest_snoc_none (hrenewal owner), ← hsame]
    exact h.seen owner old hold
  registered := by
    intro owner lease hget
    obtain ⟨old, hold, hid, -⟩ := hlease owner lease hget
    obtain ⟨registration, hlatest, hof, hsame⟩ := h.registered owner old hold
    refine ⟨registration, ?_, hof.trans hid, hepoch.trans hsame⟩
    rw [latest_snoc_none (hregistration owner)]
    exact hlatest

/-- A registry keeps the boot epoch it was made with. -/
theorem bootEpoch_registerSurfaceOwner {owners : SurfaceOwners} {owner newEpoch ownerLeaseId : Uuid}
    {recoveryRequired : Bool} {now : Instant} :
    (registerSurfaceOwner owners owner newEpoch ownerLeaseId recoveryRequired now).2.map
        (·.bootEpoch) =
      some ((owners.map (·.bootEpoch)).getD newEpoch) := by
  rcases owners with _ | entry <;> rfl

/-- **Every call keeps the record.** -/
theorem leasesRecorded_step (h : LeasesRecorded tr s) (hs : OwnerStep s l s') : LeasesRecorded (tr ++ [l]) s' := by
  cases owner_effect hs with
  | pinRefused =>
    exact h.keep (fun _ => rfl) (fun _ => rfl) rfl fun _ lease hget => ⟨lease, hget, rfl, rfl⟩
  | renewRefused =>
    exact h.keep (fun _ => rfl) (fun _ => rfl) rfl fun _ lease hget => ⟨lease, hget, rfl, rfl⟩
  | registered owner newEpoch ownerLeaseId recoveryRequired now =>
    constructor
    · intro owner' lease hget
      rw [lease_registerSurfaceOwner] at hget
      rcases ite_eq_iff.mp hget with ⟨howner, hget⟩ | ⟨howner, hget⟩
      · cases hget
        exact latest_snoc_some (if_pos howner.symm)
      · refine (latest_snoc_none ?_).trans (h.seen owner' lease hget)
        exact if_neg (Ne.symm howner)
    · intro owner' lease hget
      rw [lease_registerSurfaceOwner] at hget
      rw [bootEpoch_registerSurfaceOwner]
      rcases ite_eq_iff.mp hget with ⟨howner, hget⟩ | ⟨howner, hget⟩
      · cases hget
        refine ⟨_, latest_snoc_some (if_pos howner.symm), rfl, ?_⟩
        rcases s.owners with _ | entry <;> rfl
      · obtain ⟨registration, hlatest, hof, hsame⟩ := h.registered owner' lease hget
        refine ⟨registration, (latest_snoc_none ?_).trans hlatest, hof, ?_⟩
        · exact if_neg (Ne.symm howner)
        · rw [hsame]
          rfl
  | pinned guard proof now entry current hnew hsize hcurrent =>
    have hlease := lease_of_currentLease hcurrent
    obtain ⟨howners, -⟩ := currentLease_eq_ok.mp hcurrent
    refine h.keep (fun _ => rfl) (fun _ => rfl) (by rw [howners]; rfl) ?_
    intro owner' lease hget
    rw [lease_setLease] at hget
    rcases ite_eq_iff.mp hget with ⟨howner, hget⟩ | ⟨howner, hget⟩
    · cases hget
      exact ⟨current, howner ▸ hlease, rfl, rfl⟩
    · exact ⟨lease, howners ▸ hget, rfl, rfl⟩
  | finished guard owner hguard =>
    refine h.keep (fun _ => rfl) (fun _ => rfl) ?_ ?_
    · rcases s.owners with _ | entry
      · rfl
      · show (unpinSurfaceOwner (some entry) owner).map _ = _
        simp only [unpinSurfaceOwner]
        split <;> rfl
    · intro owner' lease hget
      rw [lease_unpinSurfaceOwner] at hget
      obtain ⟨old, hold, rfl⟩ := Option.map_eq_some_iff.mp hget
      refine ⟨old, hold, ?_, ?_⟩ <;> split <;> rfl
  | renewed proof now entry current hcurrent =>
    have hlease := lease_of_currentLease hcurrent
    obtain ⟨howners, -⟩ := currentLease_eq_ok.mp hcurrent
    constructor
    · intro owner' lease hget
      rw [lease_setLease] at hget
      rcases ite_eq_iff.mp hget with ⟨howner, hget⟩ | ⟨howner, hget⟩
      · cases hget
        exact latest_snoc_some (if_pos howner.symm)
      · refine (latest_snoc_none ?_).trans (h.seen owner' lease (howners ▸ hget))
        exact if_neg (Ne.symm howner)
    · intro owner' lease hget
      obtain ⟨old, hold, hid⟩ : ∃ old, s.owners.lease owner' = some old ∧
          old.ownerLeaseId = lease.ownerLeaseId := by
        rw [lease_setLease] at hget
        rcases ite_eq_iff.mp hget with ⟨howner, hget⟩ | ⟨howner, hget⟩
        · cases hget
          exact ⟨current, howner ▸ hlease, rfl⟩
        · exact ⟨lease, howners ▸ hget, rfl⟩
      obtain ⟨registration, hlatest, hof, hsame⟩ := h.registered owner' old hold
      rw [howners] at hsame
      exact ⟨registration, (latest_snoc_none rfl).trans hlatest, hof.trans hid, hsame⟩
  | reaped now =>
    refine h.keep (fun _ => rfl) (fun _ => rfl) ?_ ?_
    · rcases s.owners with _ | entry <;> rfl
    · intro owner' lease hget
      rw [lease_reapExpiredSurfaceOwners, Option.filter_eq_some_iff] at hget
      exact ⟨lease, hget.1, rfl, rfl⟩

theorem leasesRecorded_of_run (hrun : Run OwnerStep .new tr s) : LeasesRecorded tr s := by
  refine hrun.forward_induction (P := LeasesRecorded) ?_ fun tr t l u _ ih hs => leasesRecorded_step ih hs
  constructor <;>
    · intro owner lease h
      cases h

end

/-! ## Stale proofs -/

section
variable {s : PinnedOwners} {tr : List OwnerLabel} {proof : SurfaceOwnerProof} {now : Instant}

/-- A proof a run has left behind: of a registration that another one of the same
owner followed, or of an owner last seen a lease's lifetime ago. -/
inductive StaleProof (tr : List OwnerLabel) (proof : SurfaceOwnerProof) (now : Instant) : Prop
  | superseded (tr₁ tr₂ : List OwnerLabel) (l l' : OwnerLabel)
      (older newer : SurfaceOwnerRegistration) :
      tr = tr₁ ++ l :: tr₂ → registrationOf proof.ownerInstanceId l = some older →
      proof = older.proof → l' ∈ tr₂ → registrationOf proof.ownerInstanceId l' = some newer →
      StaleProof tr proof now
  | expired (seen : Instant) : latest (renewalOf proof.ownerInstanceId) tr = some seen →
      ownerExpired seen now = true → StaleProof tr proof now

theorem granted_current (h : LeasesRecorded tr s)
    (hgranted : (pinSurfaceOwner s.owners proof now).1 = .ok ()) :
    ∃ registration seen,
      latest (registrationOf proof.ownerInstanceId) tr = some registration ∧
        proof.ownerLeaseId = registration.ownerLeaseId ∧
          latest (renewalOf proof.ownerInstanceId) tr = some seen ∧
            ownerExpired seen now = false := by
  rw [pinSurfaceOwner] at hgranted
  rcases hcurrent : currentLease s.owners proof now with error | ⟨entry, current⟩
  · rw [hcurrent] at hgranted
    cases hgranted
  · have hlease := lease_of_currentLease hcurrent
    obtain ⟨-, -, -, hid, hfresh⟩ := currentLease_eq_ok.mp hcurrent
    obtain ⟨registration, hlatest, hof, -⟩ := h.registered _ current hlease
    exact ⟨registration, current.lastSeen, hlatest, hid.trans hof.symm, h.seen _ current hlease,
      hfresh⟩

theorem minted_of_registration {owner : Uuid} {l : OwnerLabel}
    {registration : SurfaceOwnerRegistration} (h : registrationOf owner l = some registration)
    (hmem : l ∈ tr) : registration.ownerLeaseId ∈ mintedLeaseIds tr := by
  refine mem_filterMap.mpr ⟨l, hmem, ?_⟩
  obtain ⟨c, answer⟩ := l
  cases answer with
  | registered r =>
    simp only [registrationOf] at h
    split_ifs at h
    rw [Option.some.inj h]
  | _ => cases h

/-- **A stale proof pins nothing.** -/
theorem stale_refused (h : LeasesRecorded tr s) (hminted : (mintedLeaseIds tr).Nodup)
    (hstale : StaleProof tr proof now) : (pinSurfaceOwner s.owners proof now).1 ≠ .ok () := by
  intro hgranted
  obtain ⟨registration, seen, hlatest, hid, hseen, hfresh⟩ := granted_current h hgranted
  cases hstale with
  | expired seen' hseen' hexpired =>
    rw [hseen] at hseen'
    rw [← Option.some.inj hseen', hfresh] at hexpired
    cases hexpired
  | superseded tr₁ tr₂ l l' older newer htr hl hproof hmem hl' =>
    -- the last registration is in the later part, under a lease id of its own
    have htr' : tr = (tr₁ ++ [l]) ++ tr₂ := by rw [htr]; simp
    rw [htr', latest_append] at hlatest
    obtain ⟨last, hlast⟩ := Option.isSome_iff_exists.mp
      (latest_isSome hmem (Option.isSome_iff_exists.mpr ⟨newer, hl'⟩))
    rw [hlast, Option.some_or] at hlatest
    cases hlatest
    obtain ⟨m, hm, hreg⟩ := mem_of_latest hlast
    have hlater := minted_of_registration hreg hm
    have hearlier := minted_of_registration hl (mem_append_right tr₁ (mem_singleton_self l))
    rw [htr', mintedLeaseIds, filterMap_append] at hminted
    apply disjoint_of_nodup_append hminted hearlier
    rw [show older.ownerLeaseId = proof.ownerLeaseId by rw [hproof]; rfl, hid]
    exact hlater

/-- **Surface owner pins are exact.**  In every state a run reaches, the lease of
an owner counts its live guards; a reap pass takes no lease with a live guard;
and no guard is granted for a proof that is stale by then. -/
theorem owner_pins_exact (hrun : Run OwnerStep .new tr s) (hminted : (mintedLeaseIds tr).Nodup) :
    (∀ owner lease, s.owners.lease owner = some lease → lease.inFlight = s.liveGuards owner) ∧
    (∀ owner now, 0 < s.liveGuards owner →
      owner ∉ (reapExpiredSurfaceOwners s.owners now).1 ∧
        ((reapExpiredSurfaceOwners s.owners now).2.lease owner).isSome) ∧
    (∀ proof now, StaleProof tr proof now →
      (pinSurfaceOwner s.owners proof now).1 ≠ .ok ()) := by
  have hpinned : Pinned s := hrun.invariant (fun _ _ _ => pinned_step) pinned_new
  refine ⟨hpinned.counted, ?_, fun proof now => stale_refused (leasesRecorded_of_run hrun) hminted⟩
  intro owner now hguard
  obtain ⟨lease, hlease, hused⟩ := hpinned.lease_of_guard hguard
  have hkept : lease.reapable now = false := by
    rw [SurfaceOwnerLease.reapable, beq_eq_false_iff_ne.mpr (Nat.pos_iff_ne_zero.mp hused),
      Bool.and_false]
  constructor
  · intro htaken
    obtain ⟨taken, htaken, hreapable⟩ := lease_of_taken htaken
    rw [hlease] at htaken
    rw [← Option.some.inj htaken, hkept] at hreapable
    cases hreapable
  · rw [lease_reapExpiredSurfaceOwners, hlease, Option.filter_some, hkept]
    rfl

end

/-- An owner registers, begins an operation, and registers again meanwhile. -/
def reregistrationRun : List OwnerLabel :=
  [(.register 1 10 20 false 0, .registered ⟨1, 10, 20, false⟩),
    (.pin 0 ⟨1, 10, 20⟩ 1, .pinned (.ok ())),
    (.register 1 11 21 false 2, .registered ⟨1, 10, 21, false⟩)]

theorem owner_pins_exact_reregistrationRun :
    ∃ s, Run OwnerStep .new reregistrationRun s ∧ s.liveGuards 1 = 1 ∧
      1 ∉ (reapExpiredSurfaceOwners s.owners (100 * surfaceOwnerTtl)).1 ∧
        (pinSurfaceOwner s.owners ⟨1, 10, 20⟩ 3).1 ≠ .ok () := by
  obtain ⟨s, hrun, hone⟩ : ∃ s, Run OwnerStep .new reregistrationRun s ∧ s.liveGuards 1 = 1 :=
    ⟨_, Run.cons rfl (Run.cons rfl (Run.cons rfl (Run.nil _))), by decide⟩
  obtain ⟨-, hkept, hrefused⟩ := owner_pins_exact hrun (by decide)
  refine ⟨s, hrun, hone, (hkept 1 _ (hone ▸ Nat.one_pos)).1, hrefused _ 3 ?_⟩
  exact .superseded [] _ _ _ ⟨1, 10, 20, false⟩ ⟨1, 10, 21, false⟩ rfl rfl rfl
    (mem_cons_of_mem _ mem_cons_self) rfl

end Localview
