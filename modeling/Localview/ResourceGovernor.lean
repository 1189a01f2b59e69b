import Localview.AssocMap
import Localview.Protocol
import Mathlib.Data.List.Sort
import Mathlib.Data.List.Destutter
import Mathlib.Algebra.Order.Ring.Rat
import Mathlib.Algebra.GroupWithZero.Nat

/-! # The resource governor

The runtime governor of `resource-governor/src/lib.rs`: a table of reservations
under (session, request) keys, each pending or live, an admission decision
computed from what is reserved and sampled, and the handles a caller gets back.
Each call holds the governor's lock throughout, so each is one function of the
locked state.

`f32` stays a parameter (`Binary32`): the model says which operations are
applied to what, and nothing here depends on how they round.
-/
namespace Localview

/-- What the governor computes with in `f32`. -/
class Binary32 (F : Type) where
  /-- An unsigned integer `as f32`. -/
  ofNat : Nat → F
  (threeQuarters oneAndHalf infinity : F)
  (lt le : F → F → Bool)
  /-- `f32::max` -/
  max : F → F → F
  (mul div : F → F → F)
  isFinite : F → Bool
  /-- The sum in `f64`, at most `f32::MAX`, `as f32`. -/
  addCapped : F → F → F

/-- Exact arithmetic, which `f32` agrees with on small integers. -/
instance rational32 : Binary32 ℚ where
  ofNat n := n
  threeQuarters := 3 / 4
  oneAndHalf := 3 / 2
  infinity := 2 ^ 128
  lt x y := decide (x < y)
  le x y := decide (x ≤ y)
  max x y := if x ≤ y then y else x
  mul x y := x * y
  div x y := x / y
  isFinite _ := true
  addCapped x y := x + y

def saturatingAdd (x y : Nat) : Nat := min (x + y) u64Max

/-- What may be in use at once. -/
structure ResourceBudget (F : Type) where
  memoryMb : Nat
  cpuPercent : F
  (captureStorageMb networkKbPerMinute chromiumInstances concurrentCaptures hiddenSurfaces : Nat)

/-- What is in use. -/
structure ResourceSample (F : Type) where
  memoryMb : Nat
  cpuPercent : F
  (captureStorageMb networkKbPerMinute chromiumInstances concurrentCaptures hiddenSurfaces : Nat)

structure RuntimeResourceSample (F : Type) where
  memoryMb : Nat
  cpuPercent : F
  (captureStorageMb networkKbPerMinute : Nat)

/-- How scarce resources are. -/
inductive PressureLevel
  | normal
  | elevated
  | high
  | critical
  deriving DecidableEq

/-- `High` or above. -/
def PressureLevel.atLeastHigh : PressureLevel → Bool
  | .normal | .elevated => false
  | .high | .critical => true

/-- What is given up under pressure. -/
inductive DegradationAction
  | none
  | reduceObservationRate
  | preferSemanticOverVisual
  | reduceCaptureResolution
  | evictOldArtifacts
  | suspendBackgroundResponsiveSweeps
  | blockChromiumEscalation
  | serializeCaptures
  | suspendInactiveRenderSurfaces
  deriving DecidableEq

/-- The discriminant of an action, `as u8`. -/
def DegradationAction.discriminant : DegradationAction → Nat
  | .none => 0
  | .reduceObservationRate => 1
  | .preferSemanticOverVisual => 2
  | .reduceCaptureResolution => 3
  | .evictOldArtifacts => 4
  | .suspendBackgroundResponsiveSweeps => 5
  | .blockChromiumEscalation => 6
  | .serializeCaptures => 7
  | .suspendInactiveRenderSurfaces => 8

/-- The pressure and what to do. -/
structure GovernorDecision where
  pressure : PressureLevel
  actions : List DegradationAction
  reasons : List String
  deriving DecidableEq

/-- What a reservation is for. -/
inductive ResourceWorkKind
  | nativeVisualCapture
  | chromium
  | nativeSemanticObservation
  | nativeSemanticReconciliation
  | nativeSurface
  deriving DecidableEq

/-- The resources that stay. -/
inductive LiveResourceKind
  | chromiumProcess
  | nativeSurface
  deriving DecidableEq

structure LiveSurfaceIdentity where
  (surfaceKind label : String)
  incarnation : Nat
  deriving DecidableEq

/-- Whether a surface is seen. -/
inductive SurfaceVisibility
  | visible
  | hidden
  deriving DecidableEq

/-- Why a reservation is not activated. -/
inductive ResourceActivationError
  | reservationMissing
  | kindMismatch
  | surfaceIdentityMismatch

/-- Work refused, and why. -/
structure ResourceAdmissionDenial where
  workKind : ResourceWorkKind
  decision : GovernorDecision
  deriving DecidableEq

/-- A session id and a request id. -/
abbrev ReservationKey := String × String

/-- A resource that stays, with its identity. -/
inductive LiveResourceState
  | chromiumProcess
  | nativeSurface (identity : LiveSurfaceIdentity) (visibility : SurfaceVisibility)
  deriving DecidableEq

/-- Whether a reservation is live yet. -/
inductive ReservationState
  | pending (workKind : ResourceWorkKind)
  | live (state : LiveResourceState)
  deriving DecidableEq

def ReservationState.isLive : ReservationState → Bool
  | .pending _ => false
  | .live _ => true

/-! ## The admission decision -/

section
variable {F : Type} [Binary32 F]
open Binary32

def ResourceBudget.default : ResourceBudget F :=
  { memoryMb := 256, cpuPercent := ofNat 10, captureStorageMb := 512, networkKbPerMinute := 1024
    chromiumInstances := 1, concurrentCaptures := 2, hiddenSurfaces := 4 }

def RuntimeResourceSample.default : RuntimeResourceSample F :=
  { memoryMb := 0, cpuPercent := ofNat 0, captureStorageMb := 0, networkKbPerMinute := 0 }

def RuntimeResourceSample.isValid (sample : RuntimeResourceSample F) : Bool :=
  isFinite sample.cpuPercent && le (ofNat 0) sample.cpuPercent

def ratio (value limit : F) : F :=
  if le limit (ofNat 0) then
    if lt (ofNat 0) value then infinity else ofNat 0
  else div value limit

section
variable (sample : ResourceSample F) (budget : ResourceBudget F)

/-- The pressure of the largest ratio. -/
def pressureOf : PressureLevel :=
  let ratios :=
    [ratio (ofNat sample.memoryMb) (ofNat budget.memoryMb),
      ratio sample.cpuPercent budget.cpuPercent,
      ratio (ofNat sample.captureStorageMb) (ofNat budget.captureStorageMb),
      ratio (ofNat sample.networkKbPerMinute) (ofNat budget.networkKbPerMinute),
      ratio (ofNat sample.chromiumInstances) (ofNat (Nat.max budget.chromiumInstances 1)),
      ratio (ofNat sample.concurrentCaptures) (ofNat (Nat.max budget.concurrentCaptures 1)),
      ratio (ofNat sample.hiddenSurfaces) (ofNat (Nat.max budget.hiddenSurfaces 1))]
  let peak := ratios.foldl Binary32.max (ofNat 0 : F)
  if lt peak threeQuarters then .normal
  else if lt peak (ofNat 1) then .elevated
  else if lt peak oneAndHalf then .high
  else .critical

/-- The checks of `evaluate` that come with a reason, in its order. -/
def measuredDegradations : List (Bool × DegradationAction × String) :=
  [(lt (mul budget.cpuPercent threeQuarters) sample.cpuPercent,
      .reduceObservationRate, "CPU budget is under pressure"),
    (budget.memoryMb < sample.memoryMb, .preferSemanticOverVisual, "memory budget exceeded"),
    -- the product wraps in `u64`
    (budget.captureStorageMb * 3 % 2 ^ 64 / 4 < sample.captureStorageMb,
      .evictOldArtifacts, "capture store is approaching its bound"),
    (Nat.max budget.concurrentCaptures 1 ≤ sample.concurrentCaptures,
      .serializeCaptures, "capture concurrency budget reached"),
    (Nat.max budget.chromiumInstances 1 ≤ sample.chromiumInstances,
      .blockChromiumEscalation, "Chromium instance budget reached"),
    (Nat.max budget.hiddenSurfaces 1 ≤ sample.hiddenSurfaces,
      .suspendInactiveRenderSurfaces, "hidden surface budget reached")]

def evaluate : GovernorDecision :=
  let pressure := pressureOf sample budget
  let measured := (measuredDegradations sample budget).filter (·.1)
  let actions := measured.map (·.2.1) ++
    (if pressure.atLeastHigh then [.suspendBackgroundResponsiveSweeps] else []) ++
    (if pressure = .critical then [.reduceCaptureResolution] else [])
  let actions := if actions = [] then [.none] else actions
  { pressure
    actions := (actions.insertionSort fun a b => a.discriminant ≤ b.discriminant).destutter (· ≠ ·)
    reasons := measured.map (·.2.2) }

end

def deniedByDecision (workKind : ResourceWorkKind) (decision : GovernorDecision) : Bool :=
  match workKind with
  | .nativeVisualCapture =>
      decision.pressure = .critical || decision.actions.contains .preferSemanticOverVisual ||
        decision.actions.contains .serializeCaptures
  | .chromium =>
      decision.pressure.atLeastHigh || decision.actions.contains .blockChromiumEscalation
  | .nativeSurface =>
      decision.pressure.atLeastHigh || decision.actions.contains .suspendInactiveRenderSurfaces
  | .nativeSemanticObservation | .nativeSemanticReconciliation => decision.pressure = .critical

end

/-! ## The locked state -/

/-- The budget and the reservations. -/
structure RuntimeGovernorState (F : Type) where
  budget : ResourceBudget F
  sample : RuntimeResourceSample F
  processMemoryMb : Nat
  processCpuPercent : F
  reservations : AssocMap ReservationKey ReservationState

def ReservationState.isCapture : ReservationState → Bool
  | .pending .nativeVisualCapture => true
  | _ => false

def ReservationState.isChromium : ReservationState → Bool
  | .pending .chromium | .live .chromiumProcess => true
  | _ => false

def ReservationState.isHiddenSurface : ReservationState → Bool
  | .pending .nativeSurface | .live (.nativeSurface _ .hidden) => true
  | _ => false

namespace RuntimeGovernorState
variable {F : Type} [Binary32 F] (s : RuntimeGovernorState F)

def new (budget : ResourceBudget F) : RuntimeGovernorState F :=
  { budget, sample := .default, processMemoryMb := 0, processCpuPercent := Binary32.ofNat 0
    reservations := .empty }

/-- The reservation under a key. -/
def get (key : ReservationKey) : Option ReservationState := s.reservations.get key

def decisionForState : GovernorDecision :=
  evaluate
    { memoryMb := saturatingAdd s.sample.memoryMb s.processMemoryMb
      cpuPercent := Binary32.addCapped s.sample.cpuPercent s.processCpuPercent
      captureStorageMb := s.sample.captureStorageMb
      networkKbPerMinute := s.sample.networkKbPerMinute
      chromiumInstances := min (s.reservations.count (·.isChromium)) u64Max
      concurrentCaptures := min (s.reservations.count (·.isCapture)) u64Max
      hiddenSurfaces := min (s.reservations.count (·.isHiddenSurface)) u64Max }
    s.budget

def updateSample (sample : RuntimeResourceSample F) : Bool × RuntimeGovernorState F :=
  if sample.isValid = true then (true, { s with sample }) else (false, s)

def updateProcessMetrics (memoryMb : Nat) (cpuPercent : F) : Bool × RuntimeGovernorState F :=
  if Binary32.isFinite cpuPercent = false ∨ Binary32.lt cpuPercent (Binary32.ofNat 0) then
    (false, s)
  else (true, { s with processMemoryMb := memoryMb, processCpuPercent := cpuPercent })

/-- The table replaced. -/
def setReservations (reservations : AssocMap ReservationKey ReservationState) :
    RuntimeGovernorState F :=
  { s with reservations }

/-- `release_session`: pending reservations only. -/
def releaseSession (sessionId : String) : Nat × RuntimeGovernorState F :=
  let kept := s.reservations.retain fun key state => state.isLive || key.1 ≠ sessionId
  (s.reservations.size - kept.size, s.setReservations kept)

def activateKey (key : ReservationKey) (kind : LiveResourceKind) :
    Except ResourceActivationError Unit × RuntimeGovernorState F :=
  if kind ≠ .chromiumProcess then (.error .kindMismatch, s)
  else match s.get key with
  | none => (.error .reservationMissing, s)
  | some (.pending .chromium) =>
      (.ok (), s.setReservations (s.reservations.insert key (.live .chromiumProcess)))
  | some (.pending _) => (.error .kindMismatch, s)
  | some (.live _) => (.error .reservationMissing, s)

def activateSurfaceKey (key : ReservationKey) (identity : LiveSurfaceIdentity)
    (visibility : SurfaceVisibility) :
    Except ResourceActivationError Unit × RuntimeGovernorState F :=
  match s.get key with
  | none => (.error .reservationMissing, s)
  | some (.pending .nativeSurface) =>
      (.ok (), s.setReservations
        (s.reservations.insert key (.live (.nativeSurface identity visibility))))
  | some (.pending _) => (.error .kindMismatch, s)
  | some (.live _) => (.error .reservationMissing, s)

def setSurfaceVisibilityKey (key : ReservationKey) (identity : LiveSurfaceIdentity)
    (visibility : SurfaceVisibility) :
    Except ResourceActivationError Unit × RuntimeGovernorState F :=
  match s.get key with
  | none => (.error .reservationMissing, s)
  | some (.live (.nativeSurface current _)) =>
      if current = identity then
        (.ok (), s.setReservations
          (s.reservations.insert key (.live (.nativeSurface current visibility))))
      else (.error .surfaceIdentityMismatch, s)
  | some _ => (.error .kindMismatch, s)

def releaseKey (key : ReservationKey) : RuntimeGovernorState F :=
  s.setReservations (s.reservations.erase key)

/-- `should_remove` of `release_live_key` -/
def matchesLive (state : Option ReservationState) (kind : LiveResourceKind)
    (surfaceIdentity : Option LiveSurfaceIdentity) : Bool :=
  match state with
  | some (.live .chromiumProcess) => kind = .chromiumProcess && surfaceIdentity.isNone
  | some (.live (.nativeSurface current _)) =>
      kind = .nativeSurface && surfaceIdentity = some current
  | _ => false

def releaseLiveKey (key : ReservationKey) (kind : LiveResourceKind)
    (surfaceIdentity : Option LiveSurfaceIdentity) : RuntimeGovernorState F :=
  if matchesLive (s.get key) kind surfaceIdentity then s.releaseKey key else s

end RuntimeGovernorState

/-! ## Handles

A handle holds its key until it is consumed, so a handle that exists has one. -/

structure ResourceReservation where
  key : ReservationKey

structure LiveResourceLease where
  key : ReservationKey
  kind : LiveResourceKind
  surfaceIdentity : Option LiveSurfaceIdentity

section
variable {F : Type} [Binary32 F]

def RuntimeGovernorState.reserve (s : RuntimeGovernorState F) (sessionId requestId : String)
    (workKind : ResourceWorkKind) :
    Except ResourceAdmissionDenial ResourceReservation × RuntimeGovernorState F :=
  let key := (sessionId, requestId)
  let decision := s.decisionForState
  if deniedByDecision workKind decision ∨ (s.get key).isSome then
    let reasons := if (s.get key).isSome then
      decision.reasons ++ ["resource reservation already exists"] else decision.reasons
    (.error { workKind, decision := { decision with reasons } }, s)
  else (.ok { key }, s.setReservations (s.reservations.insert key (.pending workKind)))

namespace ResourceReservation
variable (r : ResourceReservation) (s : RuntimeGovernorState F)

/-- `release`, and `Drop` -/
def release : RuntimeGovernorState F := s.releaseKey r.key

/-- `activate_live`: where it fails the reservation is dropped. -/
def activateLive (kind : LiveResourceKind) :
    Except ResourceActivationError LiveResourceLease × RuntimeGovernorState F :=
  match s.activateKey r.key kind with
  | (.error error, s) => (.error error, r.release s)
  | (.ok (), s) => (.ok { key := r.key, kind, surfaceIdentity := none }, s)

/-- `activate_surface`: where it fails the reservation is dropped. -/
def activateSurface (identity : LiveSurfaceIdentity) (visibility : SurfaceVisibility) :
    Except ResourceActivationError LiveResourceLease × RuntimeGovernorState F :=
  match s.activateSurfaceKey r.key identity visibility with
  | (.error error, s) => (.error error, r.release s)
  | (.ok (), s) =>
      (.ok { key := r.key, kind := .nativeSurface, surfaceIdentity := some identity }, s)

end ResourceReservation

namespace LiveResourceLease
variable (l : LiveResourceLease) (s : RuntimeGovernorState F)

/-- `release`, and `Drop` -/
def release : RuntimeGovernorState F := s.releaseLiveKey l.key l.kind l.surfaceIdentity

def setSurfaceVisibility (identity : LiveSurfaceIdentity) (visibility : SurfaceVisibility) :
    Except ResourceActivationError Unit × RuntimeGovernorState F :=
  if l.kind ≠ .nativeSurface then (.error .kindMismatch, s)
  else s.setSurfaceVisibilityKey l.key identity visibility

end LiveResourceLease
end

/-! ## What the calls do to the table -/

namespace RuntimeGovernorState

section
variable {F : Type} (s : RuntimeGovernorState F) {key key' : ReservationKey}

theorem get_insert (state : ReservationState) :
    (s.setReservations (s.reservations.insert key state)).get key' =
      if key' = key then some state else s.get key' :=
  s.reservations.get_insert

theorem get_releaseKey : (s.releaseKey key).get key' = if key' = key then none else s.get key' :=
  s.reservations.get_erase

theorem get_releaseSession (sessionId : String) :
    (s.releaseSession sessionId).2.get key =
      (s.get key).filter fun state => state.isLive || key.1 ≠ sessionId :=
  s.reservations.get_retain _

/-- An activation fails and drops the reservation, or makes its pending entry live. -/
inductive Activation (r : ResourceReservation) :
    Except ResourceActivationError LiveResourceLease × RuntimeGovernorState F → Prop
  | refused (error : ResourceActivationError) : Activation r (.error error, s.releaseKey r.key)
  | activated (workKind : ResourceWorkKind) (live : LiveResourceState)
      (lease : LiveResourceLease) : s.get r.key = some (.pending workKind) → lease.key = r.key →
      Activation r (.ok lease, s.setReservations (s.reservations.insert r.key (.live live)))

theorem activateLive_spec (r : ResourceReservation) (kind : LiveResourceKind) :
    s.Activation r (r.activateLive s kind) := by
  unfold ResourceReservation.activateLive activateKey
  by_cases hkind : kind ≠ .chromiumProcess
  · rw [if_pos hkind]
    exact .refused _
  · rw [if_neg hkind]
    split
    · next heq =>
      split at heq <;> cases heq <;> exact .refused _
    · next heq =>
      split at heq
      case h_2 hget =>
        cases heq
        exact .activated _ _ _ hget rfl
      all_goals cases heq

theorem activateSurface_spec (r : ResourceReservation) (identity : LiveSurfaceIdentity)
    (visibility : SurfaceVisibility) :
    s.Activation r (r.activateSurface s identity visibility) := by
  unfold ResourceReservation.activateSurface activateSurfaceKey
  split
  · next heq =>
    split at heq <;> cases heq <;> exact .refused _
  · next heq =>
    split at heq
    case h_2 hget =>
      cases heq
      exact .activated _ _ _ hget rfl
    all_goals cases heq

/-- A lease changes the visibility of a live entry, or nothing. -/
theorem setSurfaceVisibility_cases (l : LiveResourceLease) (identity : LiveSurfaceIdentity)
    (visibility : SurfaceVisibility) :
    (l.setSurfaceVisibility s identity visibility).2 = s ∨
      (s.get l.key).isSome ∧ ∃ live, (l.setSurfaceVisibility s identity visibility).2 =
        s.setReservations (s.reservations.insert l.key (.live live)) := by
  unfold LiveResourceLease.setSurfaceVisibility setSurfaceVisibilityKey
  by_cases hkind : l.kind ≠ .nativeSurface
  · rw [if_pos hkind]
    exact .inl rfl
  · rw [if_neg hkind]
    split
    · exact .inl rfl
    · next hget =>
      split
      · exact .inr ⟨by rw [hget]; rfl, _, rfl⟩
      · exact .inl rfl
    · exact .inl rfl

/-- Releasing a lease removes its entry or nothing. -/
theorem releaseLease_cases (l : LiveResourceLease) :
    l.release s = s ∨ l.release s = s.releaseKey l.key := by
  unfold LiveResourceLease.release releaseLiveKey
  split
  · exact .inr rfl
  · exact .inl rfl

end

section
variable {F : Type} [Binary32 F] (s : RuntimeGovernorState F) {key : ReservationKey}

@[simp] theorem get_updateSample (sample : RuntimeResourceSample F) :
    (s.updateSample sample).2.get key = s.get key := by
  unfold updateSample
  split <;> rfl

@[simp] theorem get_updateProcessMetrics (memoryMb : Nat) (cpuPercent : F) :
    (s.updateProcessMetrics memoryMb cpuPercent).2.get key = s.get key := by
  unfold updateProcessMetrics
  split <;> rfl

/-- `reserve` refuses, or stores one pending entry under a key that had none. -/
inductive Reservation (sessionId requestId : String) (workKind : ResourceWorkKind) :
    Except ResourceAdmissionDenial ResourceReservation × RuntimeGovernorState F → Prop
  | denied (denial : ResourceAdmissionDenial) :
      Reservation sessionId requestId workKind (.error denial, s)
  | reserved : s.get (sessionId, requestId) = none →
      Reservation sessionId requestId workKind (.ok ⟨(sessionId, requestId)⟩,
        s.setReservations (s.reservations.insert (sessionId, requestId) (.pending workKind)))

theorem reserve_spec (sessionId requestId : String) (workKind : ResourceWorkKind) :
    s.Reservation sessionId requestId workKind (s.reserve sessionId requestId workKind) := by
  by_cases hdenied : deniedByDecision workKind s.decisionForState = true ∨
      (s.get (sessionId, requestId)).isSome
  · rw [reserve, if_pos hdenied]
    exact .denied _
  · rw [reserve, if_neg hdenied]
    have hnone : s.get (sessionId, requestId) = none := by
      simpa using (not_or.mp hdenied).2
    exact .reserved hnone

end

end RuntimeGovernorState

end Localview
