import Localview.StateRun
import Localview.SurfaceHandlers
import Localview.SurfaceNumeralCodec

/-! # Surface liveness

The surface handlers and the reaper of `control/src/surface_liveness.rs` as they
interleave.  An operation in progress holds a pin on its owner and goes through
stages, one for each hold of a lock; a reap pass takes the expired owners under the
owner registry's lock and releases them one by one under the resource registry's.
Any operation or pass may take its next stage at any time.

Between the two locks of a pass an owner it has taken may register again, and
the pass then releases what belongs to the new lease.
-/
namespace Localview
open StateRun List

/-- An operation on a surface. -/
inductive SurfaceRequest
  | reserve (request : SurfaceReserveRequest)
  | cancel (request : SurfaceReserveRequest)
  | activate (request : SurfaceActivateRequest)
  | reattach (request : SurfaceReattachRequest) (requestId : String)
  | visibility (request : SurfaceReattachRequest)
  | release (request : SurfaceReleaseRequest)

def SurfaceRequest.proof : SurfaceRequest → SurfaceOwnerProof
  | .reserve request | .cancel request => request.proof
  | .activate request => request.proof
  | .reattach request _ | .visibility request => request.proof
  | .release request => request.proof

/-- What a handler has done since it pinned its owner. -/
inductive SurfaceStage
  | begun (request : SurfaceRequest)
  /-- The claim is being activated. -/
  | claimed (claim : SurfaceClaim) (visibility : SurfaceVisibility) (event : SurfaceRecoveryEvent)
      (reservation : ResourceReservation)
  | leased (claim : SurfaceClaim) (event : SurfaceRecoveryEvent) (lease : LiveResourceLease)
  /-- The activation failed, with a lease or before it had one. -/
  | failed (claim : SurfaceClaim) (lease : Option LiveResourceLease)
  | recorded (claim : SurfaceClaim) (lease : LiveResourceLease)
  /-- The surface is no longer live; its release is to be recorded. -/
  | removed (event : SurfaceRecoveryEvent)
  | done

structure SurfaceOperation where
  owner : Uuid
  stage : SurfaceStage

/-- The daemon and all that is in progress. -/
structure SurfaceSystem (F : Type) where
  daemon : SurfaceDaemon F
  clock : Instant
  operations : List SurfaceOperation
  /-- The reap passes in progress: the owners each has still to release. -/
  passes : List (List Uuid)

/-- What a stage finds: whether the session exists, and where a record it makes
stops. -/
structure SurfaceSurroundings where
  sessionExists : Bool
  stopped : Option (Nat × String)

/-- One hold of a lock, or the clock. -/
inductive SurfaceAct (F : Type)
  | tick (elapsed : Nat)
  | register (ownerInstanceId newEpoch ownerLeaseId : Uuid) (recoveryRequired : Bool) (now : Instant)
  | heartbeat (proof : SurfaceOwnerProof) (now : Instant)
  /-- A reap pass takes the owners whose leases have expired. -/
  | reap (now : Instant)
  /-- A pass releases its next owner's resources. -/
  | releaseOwner (pass : Nat)
  | start (request : SurfaceRequest) (now : Instant)
  | advance (operation : Nat) (surroundings : SurfaceSurroundings)
  /-- A request is given up while it waits. -/
  | abort (operation : Nat) (written : Nat)
  | releaseSession (session : SessionId)
  /-- Other work changes the governor. -/
  | govern (governor : RuntimeGovernorState F)

namespace SurfaceDaemon
variable {F : Type} [Binary32 F] (d : SurfaceDaemon F)

/-- The first stage of a request. -/
def begin (sessionExists : Bool) : SurfaceRequest → SurfaceStage × SurfaceDaemon F
  | .reserve request =>
      if sessionExists = false ∨ validRequestId request.requestId = false then (.done, d)
      else (.done, (d.reservePending
        ⟨request.proof.ownerInstanceId, request.sessionId, request.requestId⟩).2)
  | .cancel request =>
      if sessionExists = false ∨ validRequestId request.requestId = false then (.done, d)
      else (.done, (d.cancelPending
        ⟨request.proof.ownerInstanceId, request.sessionId, request.requestId⟩).2)
  | .activate request =>
      match d.checkClaim request.sessionId request.surfaceKind request.label request.incarnation
          request.proof.ownerInstanceId with
      | .error _ => (.done, d)
      | .ok (claim, _) =>
          match d.beginActivation claim request.requestId with
          | (.error _, d) => (.done, d)
          | (.ok reservation, d) =>
              (.claimed claim request.visibility (.activated claim.recoveryKey) reservation, d)
  | .reattach request requestId =>
      if sessionExists = false then (.done, d)
      else match d.checkClaim request.sessionId request.surfaceKind request.label
          request.incarnation request.proof.ownerInstanceId with
      | .error _ => (.done, d)
      | .ok (claim, journal) =>
          if journal.outstandingExact claim.recoveryKey = false then (.done, d)
          else match d.beginReattach claim requestId with
          | (.error _, d) => (.done, d)
          | (.ok reservation, d) =>
              (.claimed claim request.visibility (.reattached claim.recoveryKey) reservation, d)
  | .visibility request =>
      match surfaceIdentity request.surfaceKind request.label request.incarnation with
      | none => (.done, d)
      | some identity =>
          (.done, (d.setVisibility
            ⟨request.proof.ownerInstanceId, request.sessionId, identity⟩ request.visibility).2)
  | .release request =>
      match surfaceIdentity request.surfaceKind request.label request.incarnation with
      | none => (.done, d)
      | some identity =>
          let claim : SurfaceClaim := ⟨request.proof.ownerInstanceId, request.sessionId, identity⟩
          match d.removeLive claim with
          | (.error _, d) => (.done, d)
          | (.ok (), d) =>
              match claim.recoveryKey.new with
              | .error _ => (.done, d)
              | .ok key => (.removed (.released key), d)

/-- One stage of an operation; the last, `done`, has none after it. -/
def advance (codec : SurfaceEventCodec) (surroundings : SurfaceSurroundings) :
    SurfaceStage → SurfaceStage × SurfaceDaemon F
  | .begun request => d.begin surroundings.sessionExists request
  | .claimed claim visibility event reservation =>
      match reservation.activateSurface d.governor claim.identity visibility with
      | (.error _, governor) => (.failed claim none, { d with governor })
      | (.ok lease, governor) => (.leased claim event lease, { d with governor })
  | .leased claim event lease =>
      match d.recordEvent codec event surroundings.stopped with
      | (some (.ok ()), d) => (.recorded claim lease, d)
      | (_, d) => (.failed claim (some lease), d)
  | .failed claim none => (.done, d.clearActivatingClaim claim)
  | .failed claim (some lease) => (.done, d.abandonActivation claim lease)
  | .recorded claim lease => (.done, d.publishLive claim lease)
  | .removed event => (.done, (d.recordEvent codec event surroundings.stopped).2)
  | .done => (.done, d)

/-- A request given up at a stage where it waits: `written` bytes of the record it
was making have reached the file, and its lease is dropped. -/
def abort (codec : SurfaceEventCodec) (written : Nat) : SurfaceStage → Option (SurfaceDaemon F)
  | .begun _ => some d
  | .leased _ event lease =>
      let d := (d.recordEvent codec event (some (written, "request given up"))).2
      some { d with governor := lease.release d.governor }
  | .removed event => some (d.recordEvent codec event (some (written, "request given up"))).2
  | .claimed _ _ _ _ | .failed _ _ | .recorded _ _ | .done => none

end SurfaceDaemon

namespace SurfaceSystem
variable {F : Type} [Binary32 F] (s : SurfaceSystem F)

/-- The owner registry replaced. -/
def withOwners (owners : SurfaceOwners) : SurfaceSystem F :=
  { s with daemon := { s.daemon with owners } }

/-- An operation ends: its pin is dropped. -/
def finish (operation : Nat) (owner : Uuid) (daemon : SurfaceDaemon F) : SurfaceSystem F :=
  { s with
    daemon := { daemon with owners := unpinSurfaceOwner daemon.owners owner }
    operations := s.operations.eraseIdx operation }

/-- One hold of a lock.  An instant that was read is not later than the clock. -/
def act (codec : SurfaceEventCodec) : SurfaceAct F → Option (SurfaceSystem F)
  | .tick elapsed => some { s with clock := s.clock + elapsed }
  | .register ownerInstanceId newEpoch ownerLeaseId recoveryRequired now =>
      if s.clock < now then none
      else some (s.withOwners (registerSurfaceOwner s.daemon.owners ownerInstanceId newEpoch
        ownerLeaseId recoveryRequired now).2)
  | .heartbeat proof now =>
      if s.clock < now then none
      else some (s.withOwners (heartbeatSurfaceOwner s.daemon.owners proof now).2)
  | .reap now =>
      if s.clock < now then none
      else
        let (expired, owners) := reapExpiredSurfaceOwners s.daemon.owners now
        some { s.withOwners owners with passes := s.passes ++ [expired] }
  | .releaseOwner pass =>
      match s.passes[pass]? with
      | some (owner :: rest) =>
          some { s with
            daemon := (s.daemon.releaseSurfaceResourceOwner owner).2
            passes := s.passes.set pass rest }
      | _ => none
  | .start request now =>
      if s.clock < now then none
      else match pinSurfaceOwner s.daemon.owners request.proof now with
      | (.error _, _) => some s
      | (.ok (), owners) =>
          some { s.withOwners owners with
            operations := s.operations ++ [⟨request.proof.ownerInstanceId, .begun request⟩] }
  | .advance operation surroundings =>
      match s.operations[operation]? with
      | none => none
      | some ⟨owner, .done⟩ => some (s.finish operation owner s.daemon)
      | some ⟨owner, stage⟩ =>
          let (stage, daemon) := s.daemon.advance codec surroundings stage
          some { s with daemon, operations := s.operations.set operation ⟨owner, stage⟩ }
  | .abort operation written =>
      match s.operations[operation]? with
      | none => none
      | some ⟨owner, stage⟩ =>
          (s.daemon.abort codec written stage).map fun daemon => s.finish operation owner daemon
  | .releaseSession session =>
      some { s with daemon := (s.daemon.releaseSurfaceResourceSession session).2 }
  | .govern governor => some { s with daemon := { s.daemon with governor } }

end SurfaceSystem

/-- A daemon just started. -/
def SurfaceSystem.new {F : Type} (daemon : SurfaceDaemon F) (clock : Instant) : SurfaceSystem F :=
  { daemon, clock, operations := [], passes := [] }

def SurfaceSystemStep {F : Type} [Binary32 F] (codec : SurfaceEventCodec) (s : SurfaceSystem F)
    (a : SurfaceAct F) (s' : SurfaceSystem F) : Prop :=
  s.act codec a = some s'

/-! ## What is released, and who holds a lease -/

/-- Something in the registry belongs to the owner. -/
def SurfaceResourceEntry.Owned (entry : SurfaceResourceEntry) (owner : Uuid) : Prop :=
  (∃ e ∈ entry.pending.entries, e.1.owner = owner) ∨
    (∃ claim ∈ entry.activating, claim.owner = owner) ∨
      ∃ e ∈ entry.live.entries, e.1.owner = owner

def SurfaceAct.registers {F : Type} : SurfaceAct F → Option Uuid
  | .register ownerInstanceId _ _ _ _ => some ownerInstanceId
  | _ => none

namespace SurfaceSystem
variable {F : Type} (s : SurfaceSystem F)

def OwnsResources (owner : Uuid) : Prop :=
  ∃ entry, s.daemon.resources = some entry ∧ entry.Owned owner

def HoldsLease (owner : Uuid) : Prop :=
  ∃ lease, s.daemon.owners.lease owner = some lease ∧ ownerExpired lease.lastSeen s.clock = false

def ReleasesSafely (pass : Nat) : Prop :=
  ∀ owner rest, s.passes[pass]? = some (owner :: rest) → s.OwnsResources owner →
    ¬ s.HoldsLease owner

/-- No owner a pass has still to release has a lease. -/
def TakenWithoutLease : Prop :=
  ∀ pass ∈ s.passes, ∀ owner ∈ pass, s.daemon.owners.lease owner = none

/-- If the act registers an owner, no pass has still to release it. -/
def RegistersReleased (a : SurfaceAct F) : Prop :=
  ∀ owner, a.registers = some owner → ∀ pass ∈ s.passes, owner ∉ pass

end SurfaceSystem

section
variable {F : Type} (d : SurfaceDaemon F) (codec : SurfaceEventCodec)

theorem recordEvent_owners (event : SurfaceRecoveryEvent) (stopped : Option (Nat × String)) :
    (d.recordEvent codec event stopped).2.owners = d.owners := by
  rw [SurfaceDaemon.recordEvent]
  split <;> rfl

theorem abort_owners {written : Nat} {stage : SurfaceStage} {d' : SurfaceDaemon F}
    (h : d.abort codec written stage = some d') : d'.owners = d.owners := by
  cases stage with
  | claimed | failed | recorded | done => cases h
  | begun request =>
    cases h
    rfl
  | leased claim event lease =>
    cases h
    exact recordEvent_owners d codec event _
  | removed event =>
    cases h
    exact recordEvent_owners d codec event _

variable [Binary32 F]

theorem begin_frame (sessionExists : Bool) (request : SurfaceRequest) :
    ResourceFrame d (d.begin sessionExists request).2 := by
  cases request with (simp only [SurfaceDaemon.begin]; split; exact .refl d)
  | reserve request => exact d.reservePending_frame _
  | cancel request => exact d.cancelPending_frame _
  | activate request =>
    next claim _ _ =>
    have hframe := d.beginActivation_frame claim request.requestId
    split <;> simp_all
  | reattach request requestId =>
    split
    · exact .refl d
    · next claim _ _ =>
      have hframe := d.beginReattach_frame claim requestId
      split
      · exact .refl d
      · split <;> simp_all
  | visibility request => exact d.setVisibility_frame _ _
  | release request =>
    next identity _ =>
    have hframe := d.removeLive_frame ⟨request.proof.ownerInstanceId, request.sessionId, identity⟩
    split
    · simp_all
    · split <;> simp_all

/-- A handler's body leaves the owner registry alone. -/
theorem advance_owners (surroundings : SurfaceSurroundings) (stage : SurfaceStage) :
    (d.advance codec surroundings stage).2.owners = d.owners := by
  cases stage with
  | done => rfl
  | begun request => exact (begin_frame d surroundings.sessionExists request).owners
  | claimed claim visibility event reservation =>
    simp only [SurfaceDaemon.advance]
    split <;> rfl
  | leased claim event lease =>
    have hrecord := recordEvent_owners d codec event surroundings.stopped
    simp only [SurfaceDaemon.advance]
    split <;> simp_all
  | failed claim lease =>
    cases lease with
    | none => exact (d.clearActivatingClaim_frame claim).owners
    | some lease => exact (d.abandonActivation_frame claim lease).owners
  | recorded claim lease => exact (d.publishLive_frame claim lease).owners
  | removed event => exact recordEvent_owners d codec event _

end

section
variable {F : Type} {codec : SurfaceEventCodec} {s s' : SurfaceSystem F} {a : SurfaceAct F}
  {owner : Uuid}

theorem lease_finish_none {operation : Nat} {owner' : Uuid} {d : SurfaceDaemon F}
    (hd : d.owners = s.daemon.owners) (h : s.daemon.owners.lease owner = none) :
    (s.finish operation owner' d).daemon.owners.lease owner = none := by
  show (unpinSurfaceOwner d.owners owner').lease owner = none
  rw [hd]
  exact lease_unpinSurfaceOwner_none h

theorem releasesSafely_of_taken (h : s.TakenWithoutLease) (pass : Nat) : s.ReleasesSafely pass := by
  rintro owner rest hpass - ⟨lease, hlease, -⟩
  have hnone := h _ (mem_of_getElem? hpass) owner mem_cons_self
  rw [hnone] at hlease
  cases hlease

variable [Binary32 F]

/-- An owner without a lease gets one by registering only. -/
theorem lease_none_of_act (hs : SurfaceSystemStep codec s a s')
    (h : s.daemon.owners.lease owner = none) (hregister : a.registers ≠ some owner) :
    s'.daemon.owners.lease owner = none := by
  unfold SurfaceSystemStep at hs
  cases a with simp only [SurfaceSystem.act] at hs
  | tick | govern =>
    cases hs
    exact h
  | register owner' newEpoch ownerLeaseId recoveryRequired now =>
    have hne : owner ≠ owner' := fun heq => hregister (congrArg some heq.symm)
    split at hs
    · cases hs
    · cases hs
      exact (lease_registerSurfaceOwner recoveryRequired).trans ((if_neg hne).trans h)
  | heartbeat proof now =>
    split at hs
    · cases hs
    · cases hs
      exact lease_heartbeatSurfaceOwner_none h
  | reap now =>
    split at hs
    · cases hs
    · cases hs
      exact lease_reapExpiredSurfaceOwners.trans (by rw [h]; rfl)
  | releaseOwner pass =>
    split at hs
    · next owner' _ _ =>
      cases hs
      dsimp only
      rw [(s.daemon.releaseSurfaceResourceOwner_frame owner').owners]
      exact h
    · cases hs
  | start request now =>
    split at hs
    · cases hs
    · have hpin := @lease_pinSurfaceOwner_none _ request.proof owner now h
      split at hs
      · cases hs
        exact h
      · next hok =>
        cases hs
        rw [hok] at hpin
        exact hpin
  | advance operation surroundings =>
    split at hs
    · cases hs
    · cases hs
      exact lease_finish_none rfl h
    · next stage _ _ =>
      cases hs
      dsimp only
      rw [advance_owners]
      exact h
  | abort operation written =>
    split at hs
    · cases hs
    · obtain ⟨d, habort, rfl⟩ := Option.map_eq_some_iff.mp hs
      exact lease_finish_none (abort_owners s.daemon codec habort) h
  | releaseSession session =>
    cases hs
    dsimp only
    rw [(s.daemon.releaseSurfaceResourceSession_frame session).owners]
    exact h

/-- An owner comes into a pass when the pass takes its lease away. -/
theorem mem_passes_of_act (hs : SurfaceSystemStep codec s a s') {pass : List Uuid}
    (hpass : pass ∈ s'.passes) (howner : owner ∈ pass) :
    (∃ pass ∈ s.passes, owner ∈ pass) ∨ s'.daemon.owners.lease owner = none := by
  unfold SurfaceSystemStep at hs
  cases a with simp only [SurfaceSystem.act] at hs
  | reap now =>
    split at hs
    · cases hs
    · cases hs
      rcases mem_append.mp hpass with hpass | hpass
      · exact .inl ⟨pass, hpass, howner⟩
      · obtain rfl := mem_singleton.mp hpass
        obtain ⟨lease, hlease, hreapable⟩ := lease_of_taken howner
        refine .inr (lease_reapExpiredSurfaceOwners.trans ?_)
        simp [hlease, hreapable]
  | releaseOwner index =>
    split at hs
    · next rest hindex =>
      cases hs
      rcases mem_or_eq_of_mem_set hpass with hold | rfl
      · exact .inl ⟨pass, hold, howner⟩
      · exact .inl ⟨_, mem_of_getElem? hindex, mem_cons_of_mem _ howner⟩
    · cases hs
  | tick | govern | releaseSession =>
    cases hs
    exact .inl ⟨pass, hpass, howner⟩
  | register | heartbeat =>
    split at hs
    · cases hs
    · cases hs
      exact .inl ⟨pass, hpass, howner⟩
  | start =>
    split at hs
    · cases hs
    · split at hs <;> obtain rfl := Option.some.inj hs <;> exact .inl ⟨pass, hpass, howner⟩
  | advance =>
    split at hs
    · cases hs
    · cases hs
      exact .inl ⟨pass, hpass, howner⟩
    · cases hs
      exact .inl ⟨pass, hpass, howner⟩
  | abort =>
    split at hs
    · cases hs
    · obtain ⟨d, -, rfl⟩ := Option.map_eq_some_iff.mp hs
      exact .inl ⟨pass, hpass, howner⟩

theorem takenWithoutLease_step (h : s.TakenWithoutLease) (hs : SurfaceSystemStep codec s a s')
    (hregister : s.RegistersReleased a) : s'.TakenWithoutLease := by
  intro pass hpass owner howner
  rcases mem_passes_of_act hs hpass howner with ⟨pass', hpass', howner'⟩ | hnone
  · refine lease_none_of_act hs (h pass' hpass' owner howner') fun hregisters => ?_
    exact hregister owner hregisters pass' hpass' howner'
  · exact hnone

/-- **A second registration makes the release unsafe.** -/
theorem not_releasesSafely_of_register {pass : Nat} {rest : List Uuid}
    {newEpoch ownerLeaseId : Uuid} {recoveryRequired : Bool} {now : Instant}
    (hpass : s.passes[pass]? = some (owner :: rest)) (howns : s.OwnsResources owner)
    (hfresh : ownerExpired now s.clock = false)
    (hs : SurfaceSystemStep codec s
      (.register owner newEpoch ownerLeaseId recoveryRequired now) s') :
    ¬ s'.ReleasesSafely pass := by
  unfold SurfaceSystemStep at hs
  simp only [SurfaceSystem.act] at hs
  split at hs
  · cases hs
  · cases hs
    exact fun hsafe => hsafe owner rest hpass howns
      ⟨_, (lease_registerSurfaceOwner recoveryRequired).trans (if_pos rfl), hfresh⟩

end

section
variable {F : Type} [Binary32 F]

/-- Every release of the run is safe when it is made. -/
def ReapsSafely (codec : SurfaceEventCodec) (start : SurfaceSystem F) (tr : List (SurfaceAct F)) :
    Prop :=
  ∀ tr₁ pass tr₂ s, tr = tr₁ ++ .releaseOwner pass :: tr₂ →
    Run (SurfaceSystemStep codec) start tr₁ s → s.ReleasesSafely pass

/-- No owner of the run registers while a pass has still to release it. -/
def RegistersOnlyReleased (codec : SurfaceEventCodec) (start : SurfaceSystem F)
    (tr : List (SurfaceAct F)) : Prop :=
  ∀ tr₁ a tr₂ s, tr = tr₁ ++ a :: tr₂ → Run (SurfaceSystemStep codec) start tr₁ s →
    s.RegistersReleased a

theorem takenWithoutLease_of_run {codec : SurfaceEventCodec} {d : SurfaceDaemon F} {clock : Instant}
    {tr : List (SurfaceAct F)} {s : SurfaceSystem F}
    (hrun : Run (SurfaceSystemStep codec) (.new d clock) tr s)
    (hregister : RegistersOnlyReleased codec (.new d clock) tr) : s.TakenWithoutLease := by
  refine hrun.forward_induction (P := fun tr s =>
    RegistersOnlyReleased codec (.new d clock) tr → s.TakenWithoutLease) ?_ ?_ hregister
  · intro _ pass hpass
    cases hpass
  · intro tr s a s' hrun ih hs hregister
    refine takenWithoutLease_step (ih ?_) hs (hregister tr a [] s rfl hrun)
    intro tr₁ b tr₂ s₁ htr hrun₁
    exact hregister tr₁ b (tr₂ ++ [a]) s₁ (by rw [htr]; simp) hrun₁

/-- **Reaping is safe while no taken owner registers.**  In a run where no owner
registers between a pass taking its lease and releasing its resources, no pass
releases anything of an owner that holds a lease; and where an owner with resources
does register then, the release that follows is of an owner that holds one. -/
theorem reaping_safe_while_taken_stay_out (codec : SurfaceEventCodec) (d : SurfaceDaemon F)
    (clock : Instant) :
    (∀ tr, RegistersOnlyReleased codec (.new d clock) tr → ReapsSafely codec (.new d clock) tr) ∧
    (∀ tr s s' pass owner rest newEpoch ownerLeaseId recoveryRequired now,
      Run (SurfaceSystemStep codec) (.new d clock) tr s →
      s.passes[pass]? = some (owner :: rest) → s.OwnsResources owner →
      ownerExpired now s.clock = false →
      SurfaceSystemStep codec s (.register owner newEpoch ownerLeaseId recoveryRequired now) s' →
      ¬ s'.ReleasesSafely pass) := by
  constructor
  · intro tr hregister tr₁ pass tr₂ s htr hrun
    refine releasesSafely_of_taken (takenWithoutLease_of_run hrun ?_) pass
    intro tr₃ a tr₄ s₁ htr₁ hrun₁
    exact hregister tr₃ a (tr₄ ++ .releaseOwner pass :: tr₂) s₁ (by rw [htr, htr₁]; simp) hrun₁
  · intro tr s s' pass owner rest newEpoch ownerLeaseId recoveryRequired now _ hpass howns hfresh hs
    exact not_releasesSafely_of_register hpass howns hfresh hs

end

/-! ## A registration between the two locks of a pass -/

/-- Take the acts in order. -/
def SurfaceSystem.acts {F : Type} [Binary32 F] (codec : SurfaceEventCodec) (s : SurfaceSystem F) :
    List (SurfaceAct F) → Option (SurfaceSystem F)
  | [] => some s
  | a :: tr => (s.act codec a).bind fun s => s.acts codec tr

theorem run_of_acts {F : Type} [Binary32 F] {codec : SurfaceEventCodec} {s s' : SurfaceSystem F}
    {tr : List (SurfaceAct F)} (h : s.acts codec tr = some s') :
    Run (SurfaceSystemStep codec) s tr s' := by
  induction tr generalizing s with
  | nil =>
    obtain rfl := Option.some.inj h
    exact Run.nil s
  | cons a tr ih =>
    obtain ⟨s₁, hs, hrest⟩ := Option.bind_eq_some_iff.mp h
    exact Run.cons hs (ih hrest)

def idleSystem : SurfaceSystem ℚ := .new (.start surfaceNumeralCodec .default []) 0

/-- An owner registers and reserves a surface; 20 seconds later a pass takes its
lease. -/
def expiredOwner : List (SurfaceAct ℚ) :=
  [.register 5 7 8 false 0, .start (.reserve ⟨3, "preview", ⟨5, 7, 8⟩⟩) 0, .advance 0 ⟨true, none⟩,
    .advance 0 ⟨true, none⟩, .tick 20000000000, .reap 20000000000]

theorem reaping_safe_expiredOwner :
    ReapsSafely surfaceNumeralCodec idleSystem (expiredOwner ++ [.releaseOwner 0]) := by
  refine (reaping_safe_while_taken_stay_out surfaceNumeralCodec _ 0).1 _ ?_
  intro tr₁ a tr₂ s htr hrun owner hregisters
  have hrest : ∀ b ∈ (expiredOwner ++ [SurfaceAct.releaseOwner 0]).tail, b.registers = none := by
    simp [expiredOwner, SurfaceAct.registers]
  rcases tr₁ with _ | ⟨b, tr₁⟩
  · obtain rfl := Run.nil_iff.mp hrun
    intro pass hpass
    cases hpass
  · have hmem : a ∈ (expiredOwner ++ [SurfaceAct.releaseOwner 0]).tail := by
      rw [htr]
      simp
    rw [hrest a hmem] at hregisters
    cases hregisters

/-- Sections of an attempt, one after another, that nothing hinders. -/
def advances (n attempt : Nat) : List (SurfaceAct ℚ) :=
  List.replicate n (.advance attempt ⟨true, none⟩)

/-- The owner registers again, after a pass of its own, and activates a surface. -/
def returningOwner : List (SurfaceAct ℚ) :=
  .reap 20000000000 :: .register 5 7 9 false 20000000000 ::
    .start (.activate ⟨3, "preview", "preview_window", "preview", 1, .visible, ⟨5, 7, 9⟩⟩)
      20000000000 :: advances 5 0

/-- What the first pass releases next, the live surfaces' owners, and the owner's
lease with the clock. -/
def SurfaceSystem.returning (s : SurfaceSystem ℚ) :
    Option (List Uuid) × Option (List Uuid) × Option Instant × Instant :=
  (s.passes[0]?, s.daemon.resources.map fun entry => entry.live.entries.map (·.1.owner),
    (s.daemon.owners.lease 5).map (·.lastSeen), s.clock)

theorem returning_eq :
    (idleSystem.acts surfaceNumeralCodec (expiredOwner ++ returningOwner)).map
        SurfaceSystem.returning =
      some (some [5], some [5], some 20000000000, 20000000000) := by
  decide +kernel

/-- **A returning owner's surface is released.**  Its new lease is fresh when the pass
that took the old one releases what it has just activated. -/
theorem reaper_releases_returning_owner :
    ¬ ReapsSafely surfaceNumeralCodec idleSystem
      (expiredOwner ++ returningOwner ++ [.releaseOwner 0]) := by
  intro hsafe
  obtain ⟨s, hacts, hreturning⟩ := Option.map_eq_some_iff.mp returning_eq
  simp only [SurfaceSystem.returning, Prod.mk.injEq, Option.map_eq_some_iff] at hreturning
  obtain ⟨hpass, ⟨entry, hentry, hlive⟩, ⟨lease, hlease, hseen⟩, hclock⟩ := hreturning
  obtain ⟨e, he, howner⟩ : ∃ e ∈ entry.live.entries, e.1.owner = 5 := by
    have hmem : (5 : Uuid) ∈ entry.live.entries.map (·.1.owner) := by
      rw [hlive]
      exact mem_singleton_self 5
    exact mem_map.mp hmem
  refine hsafe _ 0 [] s rfl (run_of_acts hacts) 5 [] hpass ⟨entry, hentry, ?_⟩ ⟨lease, hlease, ?_⟩
  · exact .inr (.inr ⟨e, he, howner⟩)
  · rw [hseen, hclock]
    decide

end Localview
