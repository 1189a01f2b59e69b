import Localview.Protocol
import Localview.UxContracts

/-! # Mutation challenges

A mutation is applied to a copy of an isolated state, and the detectors are asked whether
they notice.  It is killed when one of those expected does.

The digests of a state and of an execution are parameters (`MutationDigests`).
-/
namespace Localview
open EarlyReturn Binary64

/-- What a mutation does to a page. -/
inductive MutationOperator (F V : Type)
  | shift (dx dy : F)
  | resize (widthFactor heightFactor : F)
  | hide
  | removeAccessibleName
  | breakTabOrder
  | disableHandler
  | delayFeedback (milliseconds : Nat)
  | forceHttpStatus (status : Nat)
  | forceTimeout (milliseconds : Nat)
  | replaceContent (value : String)
  | tokenOverride (token : String) (value : V)

/-- A mutation to be tried. -/
structure MutationCase (F V : Type) where
  id : Uuid
  target : String
  operator : MutationOperator F V
  expectedDetectors : OrderedSet String
  safeToRun : Bool

def MutationCase.syntheticSafe {F V : Type} (id : Nat) (target : String)
    (operator : MutationOperator F V) (expectedDetectors : OrderedSet String) :
    MutationCase F V :=
  ⟨BitVec.ofNat 128 id, target, operator, expectedDetectors, true⟩

/-- Whether the checks noticed a mutation. -/
inductive MutationVerdict
  | killed
  | survived
  | invalid
  | skippedUnsafe
deriving DecidableEq

/-- What the checks made of a mutation. -/
structure MutationOutcome where
  mutationId : Uuid
  verdict : MutationVerdict
  triggeredDetectors : OrderedSet String
  evidenceIds : List String

def evaluateMutation {F V : Type} (c : MutationCase F V) (triggered : OrderedSet String)
    (evidenceIds : List String) : MutationOutcome :=
  if c.safeToRun = false then ⟨c.id, .skippedUnsafe, triggered, evidenceIds⟩
  else if c.expectedDetectors.toList.isEmpty then ⟨c.id, .invalid, triggered, evidenceIds⟩
  else if (c.expectedDetectors.intersection triggered).isEmpty then
    ⟨c.id, .survived, triggered, evidenceIds⟩
  else ⟨c.id, .killed, triggered, evidenceIds⟩

/-- A page element to be mutated. -/
structure SyntheticMutationState (F V : Type) where
  targetPresent : Bool
  (x y width height : F)
  visible : Bool
  accessibleName : Option String
  (tabOrderValid handlerEnabled : Bool)
  feedbackDelayMs : Nat
  (loopbackHttpStatus loopbackTimeoutMs : Option Nat)
  content : String
  visualTokens : OrderedMap String V

def SyntheticMutationState.default {F V : Type} [Binary64 F] : SyntheticMutationState F V where
  targetPresent := true
  x := ofNat 0
  y := ofNat 0
  width := ofNat 100
  height := ofNat 40
  visible := true
  accessibleName := some "action"
  tabOrderValid := true
  handlerEnabled := true
  feedbackDelayMs := 0
  loopbackHttpStatus := none
  loopbackTimeoutMs := none
  content := "content"
  visualTokens := .empty

/-- The mutations that are allowed. -/
structure MutationSafetyPolicy where
  (allowNetworkFailure allowSourceOverlay allowExternalSideEffects : Bool)

/-- Where mutations run. -/
structure MutationExecutionPolicy where
  (isolatedState loopbackNetworkFaultAuthority externalSideEffectsAllowed : Bool)
  safety : MutationSafetyPolicy

def MutationExecutionPolicy.default : MutationExecutionPolicy where
  isolatedState := true
  loopbackNetworkFaultAuthority := false
  externalSideEffectsAllowed := false
  safety := ⟨false, true, false⟩

/-- How a mutation was run. -/
structure MutationExecutionEvidence where
  mutationId : Uuid
  (safetyChecked appliedInIsolation externalSideEffects : Bool)
  beforeDigest : String
  afterDigest : Option String
  triggeredDetectors : OrderedSet String
  (reason evidenceId : String)

/-- A mutation's outcome and its run. -/
structure MutationChallengeResult where
  outcome : MutationOutcome
  execution : MutationExecutionEvidence

/-- The SHA-256 digests, in hexadecimal and tagged, of what is serialized. -/
structure MutationDigests (F V : Type) where
  stateDigest : SyntheticMutationState F V → String
  executionEvidenceId : Uuid → String → Option String → OrderedSet String → String → String

section
variable {F V : Type}

def wave9PolicyAllows (c : MutationCase F V) (policy : MutationExecutionPolicy) :
    Except String Unit := do
  rejectIf (c.expectedDetectors.toList.isEmpty)
    "mutation has no expected detector and is invalid"
  rejectIf (c.safeToRun = false) "mutation case is explicitly unsafe"
  rejectIf (policy.isolatedState = false)
    "Wave 9 mutations require isolated synthetic or shadow state"
  rejectIf (policy.externalSideEffectsAllowed = true ∨
      policy.safety.allowExternalSideEffects = true)
    "Wave 9 mutation execution forbids external side effects"
  match c.operator with
  | .forceHttpStatus _ | .forceTimeout _ => do
    rejectIf (policy.safety.allowNetworkFailure = false)
      "network failure mutation is disabled by safety policy"
    rejectIf (policy.loopbackNetworkFaultAuthority = false)
      "network failure mutation requires proven loopback fault authority"
  | _ =>
    rejectIf (policy.safety.allowSourceOverlay = false)
      "source/semantic overlay mutation is disabled by safety policy"

variable [Binary64 F]

def applyOperator (s : SyntheticMutationState F V) :
    MutationOperator F V → Except String (SyntheticMutationState F V)
  | .shift dx dy => do
    rejectIf (isFinite dx = false ∨ isFinite dy = false)
      "layout shift is non-finite"
    return { s with x := add s.x dx, y := add s.y dy }
  | .resize widthFactor heightFactor => do
    rejectIf (isFinite widthFactor = false ∨ isFinite heightFactor = false ∨
        le widthFactor (ofNat 0) = true ∨
        le heightFactor (ofNat 0) = true)
      "resize factors must be finite and positive"
    return { s with
      width := mul s.width widthFactor
      height := mul s.height heightFactor }
  | .hide => return { s with visible := false }
  | .removeAccessibleName => return { s with accessibleName := none }
  | .breakTabOrder => return { s with tabOrderValid := false }
  | .disableHandler => return { s with handlerEnabled := false }
  | .delayFeedback milliseconds => return { s with feedbackDelayMs := milliseconds }
  | .forceHttpStatus status => do
    rejectIf (¬ (100 ≤ status ∧ status ≤ 599)) "synthetic HTTP status is outside the valid range"
    return { s with loopbackHttpStatus := some status }
  | .forceTimeout milliseconds => do
    rejectIf (milliseconds = 0 ∨ 60000 < milliseconds)
      "synthetic timeout is outside the bounded range"
    return { s with loopbackTimeoutMs := some milliseconds }
  | .replaceContent value => do
    rejectIf (64 * 1024 < value.utf8ByteSize) "replacement content exceeds synthetic bound"
    return { s with content := value }
  | .tokenOverride token value => do
    rejectIf (token.isEmpty ∨ 256 < token.utf8ByteSize)
      "visual token key is outside the bounded range"
    return { s with visualTokens := s.visualTokens.insert token value }

variable (digests : MutationDigests F V)

/-- The result of a challenge that was not carried out. -/
def refusedChallenge (c : MutationCase F V) (beforeDigest : String) (verdict : MutationVerdict)
    (reason : String) : MutationChallengeResult :=
  let evidenceId := digests.executionEvidenceId c.id beforeDigest none .empty reason
  { outcome := ⟨c.id, verdict, .empty, [evidenceId]⟩
    execution :=
      { mutationId := c.id, safetyChecked := true, appliedInIsolation := false
        externalSideEffects := false, beforeDigest := beforeDigest, afterDigest := none
        triggeredDetectors := .empty, reason := reason, evidenceId := evidenceId } }

def executedChallenge (c : MutationCase F V) (beforeDigest afterDigest : String)
    (triggered : OrderedSet String) : MutationChallengeResult :=
  let reason :=
    if triggered.toList.isEmpty then "isolated mutation executed; no detector triggered"
    else s!"isolated mutation executed; {triggered.toList.length} detector(s) triggered"
  let evidenceId :=
    digests.executionEvidenceId c.id beforeDigest (some afterDigest) triggered reason
  { outcome := evaluateMutation c triggered [evidenceId]
    execution :=
      { mutationId := c.id, safetyChecked := true, appliedInIsolation := true
        externalSideEffects := false, beforeDigest := beforeDigest, afterDigest := some afterDigest
        triggeredDetectors := triggered, reason := reason, evidenceId := evidenceId } }

def executeMutationChallenge (c : MutationCase F V) (baseline : SyntheticMutationState F V)
    (policy : MutationExecutionPolicy)
    (detector : SyntheticMutationState F V → SyntheticMutationState F V → OrderedSet String) :
    MutationChallengeResult :=
  let beforeDigest := digests.stateDigest baseline
  match wave9PolicyAllows c policy with
  | .error reason =>
    refusedChallenge digests c beforeDigest
      (if c.expectedDetectors.toList.isEmpty then .invalid else .skippedUnsafe) reason
  | .ok _ =>
    match applyOperator baseline c.operator with
    | .error reason => refusedChallenge digests c beforeDigest .invalid reason
    | .ok candidate =>
      executedChallenge digests c beforeDigest (digests.stateDigest candidate)
        (detector baseline candidate)

end
end Localview
