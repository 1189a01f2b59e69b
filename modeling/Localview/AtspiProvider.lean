import Localview.AssocMap
import Localview.Interleaving
import Localview.Protocol

/-! # The AT-SPI provider

The provider of `crates/linux-atspi-provider`: the bindings of accessible elements it
mints, and the permits it gives on them.  What it holds is behind three kinds of
mutex, and no call holds two of them: the accessibility bus, the table of endpoint
authority, and the lifecycle flag of each binding.  An access of a call here is what
the source does under one of them.

What the accessibility bus answers is an argument of the call that asks, the hit test
of a pointer action as one answer.
-/
namespace Localview.LinuxAtspi
open Interleaving Interleaving.Call

/-! ## Bindings and permits -/

/-- Where an accessible object is found. -/
structure AtspiEndpoint where
  (busName objectPath : String)
  deriving DecidableEq

/-- Whether a binding's element was seen defunct. -/
inductive AtspiBindingLifecycle
  | live
  | invalidDefunct
  deriving DecidableEq

/-- The flag it shares with its clones is in `ProviderState`, under its revision. -/
structure AtspiElementBinding where
  providerIncarnationRef : ProviderIncarnationRef
  targetIncarnationRef : TargetIncarnationRef
  accessibilityBusIncarnationRef : Nat
  endpoint : AtspiEndpoint
  acquisitionCutRef : String
  bindingRevision : Nat
  deriving DecidableEq

/-- Whether the accessibility bus is there. -/
inductive AtspiAccessibilityBusLifecycle
  | connected
  | disconnected
  deriving DecidableEq

/-- The states of an accessible that the provider looks for. -/
structure StateSet where
  (defunct visible showing : Bool)

/-- What an event profile speaks of. -/
inductive AtspiSemanticDimension
  | stateSet
  deriving DecidableEq

/-- Whether all events of a dimension arrive. -/
inductive AtspiEventAssurance
  | completeForRequestedDimensions
  | incomplete

structure AtspiEventReliabilityProfile where
  assurance : AtspiEventAssurance
  directReconciliationDimensions : List AtspiSemanticDimension

def AtspiEventReliabilityProfile.linuxToolkitDefault (dimensions : List AtspiSemanticDimension) :
    AtspiEventReliabilityProfile :=
  let directReconciliationDimensions := dimensions.foldl (fun listed dimension =>
    if dimension ∈ listed then listed else listed ++ [dimension]) []
  { assurance := if directReconciliationDimensions.isEmpty then .completeForRequestedDimensions
      else .incomplete
    directReconciliationDimensions }

def AtspiEventReliabilityProfile.requiresDirectReconciliationFor
    (profile : AtspiEventReliabilityProfile) (dimension : AtspiSemanticDimension) : Bool :=
  decide (dimension ∈ profile.directReconciliationDimensions)

/-- Where a state observation comes from. -/
inductive AtspiObservationOrigin
  | eventCache
  | directReconciliation
  deriving DecidableEq

/-- A state read, and where it came from. -/
structure AtspiStateObservation where
  providerIncarnationRef : ProviderIncarnationRef
  targetIncarnationRef : TargetIncarnationRef
  (accessibilityBusIncarnationRef bindingRevision observationRevision : Nat)
  snapshotCutRef : String
  origin : AtspiObservationOrigin
  states : StateSet

def AtspiStateObservation.matchesBinding (observation : AtspiStateObservation)
    (binding : AtspiElementBinding) : Bool :=
  decide (observation.providerIncarnationRef = binding.providerIncarnationRef ∧
    observation.targetIncarnationRef = binding.targetIncarnationRef ∧
    observation.accessibilityBusIncarnationRef = binding.accessibilityBusIncarnationRef ∧
    observation.bindingRevision = binding.bindingRevision)

/-- Leave to run an action. -/
structure AtspiActionEligibilityPermit where
  bindingRevision : Nat
  acquisitionCutRef : String
  accessibilityBusIncarnationRef : Nat
  observationRevision : Option Nat
  observationCutRef : Option String
  deriving DecidableEq

namespace AtspiActionEligibilityPermit

def new (binding : AtspiElementBinding) : AtspiActionEligibilityPermit :=
  { bindingRevision := binding.bindingRevision, acquisitionCutRef := binding.acquisitionCutRef
    accessibilityBusIncarnationRef := binding.accessibilityBusIncarnationRef
    observationRevision := none, observationCutRef := none }

def newReconciled (binding : AtspiElementBinding) (observation : AtspiStateObservation) :
    AtspiActionEligibilityPermit :=
  { bindingRevision := binding.bindingRevision, acquisitionCutRef := binding.acquisitionCutRef
    accessibilityBusIncarnationRef := binding.accessibilityBusIncarnationRef
    observationRevision := some observation.observationRevision
    observationCutRef := some observation.snapshotCutRef }

end AtspiActionEligibilityPermit

/-- Leave to use the pointer. -/
structure AtspiPointerEligibilityPermit where
  bindingRevision : Nat
  acquisitionCutRef : String
  accessibilityBusIncarnationRef : Nat
  deriving DecidableEq

def AtspiPointerEligibilityPermit.new (binding : AtspiElementBinding) :
    AtspiPointerEligibilityPermit :=
  { bindingRevision := binding.bindingRevision, acquisitionCutRef := binding.acquisitionCutRef
    accessibilityBusIncarnationRef := binding.accessibilityBusIncarnationRef }

/-- What lies under the pointer. -/
inductive AtspiPointerHitTest
  | target (endpoint : AtspiEndpoint)
  | other (endpoint : AtspiEndpoint)
  | unavailable

/-! ## Errors -/

/-- Why the bus is not connected anew. -/
inductive AtspiProviderConnectionError
  | accessibilityBusUnavailable
  | accessibilityBusStillConnected

/-- Why an endpoint is not bound. -/
inductive AtspiBindError
  | accessibilityBusDisconnected
  | endpointAlreadyBound

/-- Why a binding is not replaced. -/
inductive AtspiReacquireError
  | previousBindingNotDefunct
  | previousBindingSuperseded
  | replacementEndpointAlreadyBound
  | providerIncarnationMismatch
  | targetIncarnationMismatch
  | accessibilityBusDisconnected
  | accessibilityBusIncarnationMismatch
  | accessibilityBusIncarnationNotAdvanced

/-- Why an action gets no permit. -/
inductive AtspiActionEligibilityError
  | defunct
  | alreadyInvalidDefunct
  | accessibilityBusDisconnected
  | accessibilityBusIncarnationMismatch
  | observationUnavailable
  | reconciliationRequired
  | observationBindingMismatch
  | providerIncarnationMismatch
  | targetIncarnationMismatch
  deriving DecidableEq

/-- Why a pointer action gets no permit. -/
inductive AtspiPointerEligibilityError
  | semantic (error : AtspiActionEligibilityError)
  | notVisible
  | notShowing
  | hitTestUnavailable
  | occluded
  deriving DecidableEq

/-! ## The provider -/

structure EndpointAuthorityRecord where
  bindingRevision : Nat
  retired : Bool

/-- `connection` says whether there is one. -/
structure AccessibilityBusRuntime where
  lifecycle : AtspiAccessibilityBusLifecycle
  incarnationRef : Nat
  connection : Bool

/-- What does not change in a provider. -/
structure LinuxAtspiProvider where
  providerIncarnationRef : ProviderIncarnationRef
  targetIncarnationRef : TargetIncarnationRef
  validationOnly : Bool

/-- What the clones of a provider share, the lifecycle flags of bindings by revision,
and the counters of the process.  `otherBuses` are the incarnations that other
providers of the process took. -/
structure ProviderState where
  accessibilityBus : AccessibilityBusRuntime
  endpointAuthority : AssocMap AtspiEndpoint EndpointAuthorityRecord
  lifecycle : Nat → AtspiBindingLifecycle
  (nextBindingRevision nextAccessibilityBusIncarnation nextObservationRevision : Nat)
  otherBuses : List Nat

/-- What a call notes of its accesses and answers. -/
inductive AuthorityEvent
  | asked (binding : AtspiElementBinding)
  | busRead (incarnation : Nat)
  | bound (binding : AtspiElementBinding) (previous : Option AtspiElementBinding)
  | boundElsewhere (binding : AtspiElementBinding)
  | connected (incarnation : Nat)
  | disconnected (incarnation : Nat)
  | readLive (binding : AtspiElementBinding)
  | observedDefunct (binding : AtspiElementBinding)
  | actionAnswer (binding : AtspiElementBinding)
      (answer : Except AtspiActionEligibilityError AtspiActionEligibilityPermit)
  | pointerAnswer (binding : AtspiElementBinding)
      (answer : Except AtspiPointerEligibilityError AtspiPointerEligibilityPermit)
  deriving DecidableEq

abbrev AtspiCall (η α : Type) : Type := Call ProviderState AuthorityEvent η α

namespace ProviderState
variable (s : ProviderState)

/-- `connect` and `new_for_validation`, the counters standing as they are. -/
def new (connection : Bool) (bindingRevision busIncarnation observationRevision : Nat) :
    ProviderState :=
  { accessibilityBus := { lifecycle := .connected, incarnationRef := busIncarnation, connection }
    endpointAuthority := AssocMap.empty
    lifecycle := fun _ => .live
    nextBindingRevision := bindingRevision
    nextAccessibilityBusIncarnation := busIncarnation + 1
    nextObservationRevision := observationRevision
    otherBuses := List.range busIncarnation }

/-- A binding's flag, set. -/
def flag (revision : Nat) (lifecycle : AtspiBindingLifecycle) : ProviderState :=
  { s with lifecycle := Function.update s.lifecycle revision lifecycle }

/-- `AtspiElementBinding::new` takes the next revision and a flag that says live. -/
def mintBinding : ProviderState :=
  { s.flag s.nextBindingRevision .live with nextBindingRevision := s.nextBindingRevision + 1 }

def setBus (bus : AccessibilityBusRuntime) : ProviderState := { s with accessibilityBus := bus }

def setAuthority (endpoint : AtspiEndpoint) (record : EndpointAuthorityRecord) : ProviderState :=
  { s with endpointAuthority := s.endpointAuthority.insert endpoint record }

end ProviderState

namespace LinuxAtspiProvider
variable (self : LinuxAtspiProvider)

def newBinding (bindingRevision accessibilityBusIncarnationRef : Nat) (endpoint : AtspiEndpoint)
    (acquisitionCutRef : String) : AtspiElementBinding :=
  { providerIncarnationRef := self.providerIncarnationRef
    targetIncarnationRef := self.targetIncarnationRef, accessibilityBusIncarnationRef, endpoint
    acquisitionCutRef, bindingRevision }

/-- The bus read before a binding is made: connected, and with an incarnation that
`check` lets pass. -/
def readBus {η : Type} (disconnected : η) (check : Nat → Option η) : AtspiCall η Nat :=
  locked fun s =>
    if s.accessibilityBus.lifecycle = .disconnected then (.error disconnected, s, [])
    else
      match check s.accessibilityBus.incarnationRef with
      | some error => (.error error, s, [])
      | none => (.ok s.accessibilityBus.incarnationRef, s,
          [.busRead s.accessibilityBus.incarnationRef])

/-! ### Binding -/

def bindInitial (endpoint : AtspiEndpoint) (acquisitionCutRef : String) :
    AtspiCall AtspiBindError AtspiElementBinding := do
  let busIncarnation ← readBus .accessibilityBusDisconnected fun _ => none
  locked fun s =>
    if (s.endpointAuthority.get endpoint).isSome then (.error .endpointAlreadyBound, s, [])
    else
      let binding := self.newBinding s.nextBindingRevision busIncarnation endpoint acquisitionCutRef
      (.ok binding,
        s.mintBinding.setAuthority endpoint
          { bindingRevision := binding.bindingRevision, retired := false },
        [.bound binding none])

section
variable (previous : AtspiElementBinding) (replacement : AtspiEndpoint) (acquisitionCutRef : String)

/-- The last part of both reacquisitions: the table still has the previous binding, and
gets a fresh one for it. -/
def replaceBinding (busIncarnation : Nat) :
    AtspiCall AtspiReacquireError AtspiElementBinding :=
  locked fun s =>
    match s.endpointAuthority.get previous.endpoint with
    | none => (.error .previousBindingSuperseded, s, [])
    | some previousRecord =>
        if previousRecord.retired = true ∨
            previousRecord.bindingRevision ≠ previous.bindingRevision then
          (.error .previousBindingSuperseded, s, [])
        else if replacement ≠ previous.endpoint ∧
            (s.endpointAuthority.get replacement).isSome then
          (.error .replacementEndpointAlreadyBound, s, [])
        else
          let fresh := self.newBinding s.nextBindingRevision busIncarnation replacement
            acquisitionCutRef
          let freshRecord : EndpointAuthorityRecord :=
            { bindingRevision := fresh.bindingRevision, retired := false }
          if replacement = previous.endpoint then
            (.ok fresh, s.mintBinding.setAuthority replacement freshRecord,
              [.bound fresh (some previous)])
          else
            (.ok fresh,
              (s.mintBinding.setAuthority previous.endpoint
                { previousRecord with retired := true }).setAuthority replacement freshRecord,
              [.bound fresh (some previous)])

def reacquireAfterDefunct : AtspiCall AtspiReacquireError AtspiElementBinding := do
  reject (previous.providerIncarnationRef ≠ self.providerIncarnationRef)
    .providerIncarnationMismatch
  reject (previous.targetIncarnationRef ≠ self.targetIncarnationRef) .targetIncarnationMismatch
  locked fun s =>
    if s.lifecycle previous.bindingRevision ≠ .invalidDefunct then
      (.error .previousBindingNotDefunct, s, [])
    else (.ok (), s, [])
  let busIncarnation ← readBus .accessibilityBusDisconnected fun current =>
    if previous.accessibilityBusIncarnationRef ≠ current then
      some .accessibilityBusIncarnationMismatch
    else none
  self.replaceBinding previous replacement acquisitionCutRef busIncarnation

def reacquireAfterBusReconnect : AtspiCall AtspiReacquireError AtspiElementBinding := do
  reject (previous.providerIncarnationRef ≠ self.providerIncarnationRef)
    .providerIncarnationMismatch
  reject (previous.targetIncarnationRef ≠ self.targetIncarnationRef) .targetIncarnationMismatch
  let currentBus ← readBus .accessibilityBusDisconnected fun current =>
    if previous.accessibilityBusIncarnationRef = current then
      some .accessibilityBusIncarnationNotAdvanced
    else none
  self.replaceBinding previous replacement acquisitionCutRef currentBus

end

/-! ### The bus -/

def markAccessibilityBusDisconnected {η : Type} : AtspiCall η Unit :=
  update fun s =>
    ((), s.setBus { s.accessibilityBus with lifecycle := .disconnected, connection := false },
      [.disconnected s.accessibilityBus.incarnationRef])

/-- The fresh incarnation a reconnection takes, unless the bus is connected already. -/
def freshBus (connection : Bool) : AtspiCall AtspiProviderConnectionError Nat :=
  locked fun s =>
    if s.accessibilityBus.lifecycle = .connected then
      (.error .accessibilityBusStillConnected, s, [])
    else
      let fresh := s.nextAccessibilityBusIncarnation
      (.ok fresh,
        { s.setBus { lifecycle := .connected, incarnationRef := fresh, connection } with
          nextAccessibilityBusIncarnation := fresh + 1 },
        [.connected fresh])

/-- `reconnect_accessibility_bus`; `opened` says whether the connection could be made. -/
def reconnectAccessibilityBus (opened : Bool) : AtspiCall AtspiProviderConnectionError Nat := do
  locked fun s =>
    if s.accessibilityBus.lifecycle = .connected then
      (.error .accessibilityBusStillConnected, s, [])
    else (.ok (), s, [])
  reject (self.validationOnly = true) .accessibilityBusUnavailable
  reject (opened = false) .accessibilityBusUnavailable
  freshBus true

def reconnectAccessibilityBusForValidation : AtspiCall AtspiProviderConnectionError Nat :=
  freshBus false

/-! ### Authorization -/

/-- `connection_for_live_authority`: the incarnation the connection is of. -/
def connectionForLiveAuthority : AtspiCall AtspiActionEligibilityError Nat :=
  locked fun s =>
    if s.accessibilityBus.lifecycle = .disconnected then
      (.error .accessibilityBusDisconnected, s, [])
    else if s.accessibilityBus.connection = false then (.error .observationUnavailable, s, [])
    else (.ok s.accessibilityBus.incarnationRef, s, [])

/-- `classify_transport_failure`, the bus daemon answering or not. -/
def classifyTransportFailure {α : Type} (failedBusIncarnation : Nat) (busAlive : Bool) :
    AtspiCall AtspiActionEligibilityError α := do
  reject (busAlive = true) .observationUnavailable
  locked fun s =>
    if s.accessibilityBus.lifecycle = .disconnected then
      (.error .accessibilityBusDisconnected, s, [])
    else if s.accessibilityBus.incarnationRef ≠ failedBusIncarnation then
      (.error .accessibilityBusIncarnationMismatch, s, [])
    else
      (.error .accessibilityBusDisconnected,
        s.setBus { s.accessibilityBus with lifecycle := .disconnected, connection := false },
        [.disconnected s.accessibilityBus.incarnationRef])

section
variable (binding : AtspiElementBinding)

/-- `ensure_binding_authority`: the flag first, the bus after it. -/
def ensureBindingAuthority : AtspiCall AtspiActionEligibilityError Unit := do
  locked fun s =>
    if s.lifecycle binding.bindingRevision = .invalidDefunct then
      (.error .alreadyInvalidDefunct, s, [])
    else (.ok (), s, [.readLive binding])
  reject (binding.providerIncarnationRef ≠ self.providerIncarnationRef) .providerIncarnationMismatch
  reject (binding.targetIncarnationRef ≠ self.targetIncarnationRef) .targetIncarnationMismatch
  locked fun s =>
    if s.accessibilityBus.lifecycle = .disconnected then
      (.error .accessibilityBusDisconnected, s, [])
    else if binding.accessibilityBusIncarnationRef ≠ s.accessibilityBus.incarnationRef then
      (.error .accessibilityBusIncarnationMismatch, s, [])
    else (.ok (), s, [])

def invalidateDefunct {η : Type} (binding : AtspiElementBinding) : AtspiCall η Unit :=
  update fun s =>
    ((), s.flag binding.bindingRevision .invalidDefunct, [.observedDefunct binding])

/-- What the accessible answers when its states are read. -/
inductive StateRead
  | malformed
  | failed (busAlive : Bool)
  | states (states : StateSet)

/-- The states of the accessible, read over the connection. -/
def readStates (read : StateRead) : AtspiCall AtspiActionEligibilityError StateSet := do
  let busIncarnation ← connectionForLiveAuthority
  match read with
  | .malformed => .fail .observationUnavailable
  | .failed busAlive => classifyTransportFailure busIncarnation busAlive
  | .states states => pure states

/-- `AtspiStateObservation::from_direct_reconciliation` -/
def fromDirectReconciliation {η : Type} (binding : AtspiElementBinding) (states : StateSet) :
    AtspiCall η AtspiStateObservation :=
  update fun s =>
    ({ providerIncarnationRef := binding.providerIncarnationRef
       targetIncarnationRef := binding.targetIncarnationRef
       accessibilityBusIncarnationRef := binding.accessibilityBusIncarnationRef
       bindingRevision := binding.bindingRevision
       observationRevision := s.nextObservationRevision
       snapshotCutRef := "cut:linux-atspi:reconcile:" ++ toString s.nextObservationRevision
       origin := .directReconciliation
       states },
      { s with nextObservationRevision := s.nextObservationRevision + 1 }, [])

def reconcileActionState (read : StateRead) :
    AtspiCall AtspiActionEligibilityError AtspiStateObservation := do
  self.ensureBindingAuthority binding
  let states ← readStates read
  fromDirectReconciliation binding states

def authorizeActionFromObservation
    (reliability : AtspiEventReliabilityProfile) (observation : AtspiStateObservation) :
    AtspiCall AtspiActionEligibilityError AtspiActionEligibilityPermit := do
  self.ensureBindingAuthority binding
  reject (observation.matchesBinding binding = false) .observationBindingMismatch
  reject (reliability.requiresDirectReconciliationFor .stateSet = true ∧
    observation.origin ≠ .directReconciliation) .reconciliationRequired
  if observation.states.defunct then
    invalidateDefunct binding
    .fail .defunct
  else pure (.newReconciled binding observation)

def authorizeAction (read : StateRead) :
    AtspiCall AtspiActionEligibilityError AtspiActionEligibilityPermit := do
  let observation ← self.reconcileActionState binding read
  let reliability := AtspiEventReliabilityProfile.linuxToolkitDefault [.stateSet]
  self.authorizeActionFromObservation binding reliability observation

def authorizeFromStateSet (states : StateSet) :
    AtspiCall AtspiActionEligibilityError AtspiActionEligibilityPermit := do
  self.ensureBindingAuthority binding
  if states.defunct then
    invalidateDefunct binding
    .fail .defunct
  else pure (.new binding)

def authorizePointerFromObservation (states : StateSet)
    (hitTest : AtspiPointerHitTest) :
    AtspiCall AtspiPointerEligibilityError AtspiPointerEligibilityPermit := do
  let _ ← (self.authorizeFromStateSet binding states).mapError .semantic
  reject (states.visible = false) .notVisible
  reject (states.showing = false) .notShowing
  match hitTest with
  | .unavailable => .fail .hitTestUnavailable
  | .other _ => .fail .occluded
  | .target endpoint =>
      if endpoint = binding.endpoint then pure (.new binding) else .fail .occluded

/-- `authorize_pointer_action`; `hitTest` is what the accessibility bus makes of the hit
test of a visible element. -/
def authorizePointerAction (read : StateRead)
    (hitTest : Except AtspiPointerEligibilityError AtspiPointerHitTest) :
    AtspiCall AtspiPointerEligibilityError AtspiPointerEligibilityPermit := do
  (self.ensureBindingAuthority binding).mapError .semantic
  let states ← (readStates read).mapError .semantic
  let _ ← (self.authorizeFromStateSet binding states).mapError .semantic
  reject (states.visible = false) .notVisible
  reject (states.showing = false) .notShowing
  let hitTest ← Call.ofExcept hitTest
  self.authorizePointerFromObservation binding states hitTest

end

end LinuxAtspiProvider
end Localview.LinuxAtspi
