import Mathlib.Data.Rat.Defs
import Mathlib.Data.String.Basic
import Localview.EarlyReturn
import Localview.OrderedSet
import Localview.Protocol

/-! # The state-space compiler

Dimensions are expanded to all their assignments, those that break a constraint are
dropped, the rest is put in order of risk, and up to a bound the states are picked that
cover most pairs not yet covered.  A plan of affected states adds to them the impact that
is bound and what stays incomplete about it.

`f32` is a parameter (`Score32`), and so is the JSON metadata of a value.
-/
namespace Localview
open EarlyReturn

/-- What the compiler computes with in `f32`. -/
class Score32 (F : Type) where
  /-- An unsigned integer `as f32`. -/
  ofNat : Nat → F
  oneAndHalf : F
  (add mul div : F → F → F)
  /-- `f32::max` -/
  max : F → F → F
  /-- `f32::clamp` -/
  clamp : F → F → F → F
  /-- `f32::total_cmp`: not greater. -/
  totalLe : F → F → Bool

/-- Exact arithmetic, which `f32` agrees with on small integers. -/
instance rationalScore : Score32 ℚ where
  ofNat n := n
  oneAndHalf := 3 / 2
  add := (· + ·)
  mul := (· * ·)
  div := (· / ·)
  max x y := if x ≤ y then y else x
  clamp x lo hi := if x < lo then lo else if hi < x then hi else x
  totalLe x y := decide (x ≤ y)

structure StateValue (V : Type) where
  (id label : String)
  metadata : OrderedMap String V

/-- Something a state varies in. -/
structure StateDimension (F V : Type) where
  id : String
  values : List (StateValue V)
  riskWeight : F
  boundaryValues : OrderedSet String

/-- What a product state must meet. -/
inductive Constraint
  | forbidPair (leftDimension leftValue rightDimension rightValue : String)
  | requirePair (whenDimension whenValue requiredDimension : String)
      (allowedValues : OrderedSet String)

/-- A value for each dimension. -/
structure ProductState (F : Type) where
  values : OrderedMap String String
  score : F
  provenance : List String

def ProductState.key {F : Type} (s : ProductState F) : String :=
  String.intercalate "|" (s.values.entries.map fun (dimension, value) => s!"{dimension}={value}")

/-- Dimensions, constraints and a cap. -/
structure StateSpacePlan (F V : Type) where
  dimensions : List (StateDimension F V)
  constraints : List Constraint
  maxStates : Nat

/-- The states to be looked at. -/
structure CompiledStateSpace (F : Type) where
  states : List (ProductState F)
  totalUnconstrainedCombinations : Nat
  pairCoverage : F
  eliminatedByConstraints : Nat

section
variable {F V : Type}

/-- Every assignment, the values of the first dimension the slowest to change. -/
def expandStates : List (StateDimension F V) → OrderedMap String String →
    List (OrderedMap String String)
  | [], current => [current]
  | dimension :: rest, current =>
    dimension.values.flatMap fun value => expandStates rest (current.insert dimension.id value.id)

def Constraint.satisfied (values : OrderedMap String String) : Constraint → Bool
  | .forbidPair leftDimension leftValue rightDimension rightValue =>
    !(values.get leftDimension == some leftValue && values.get rightDimension == some rightValue)
  | .requirePair whenDimension whenValue requiredDimension allowedValues =>
    values.get whenDimension != some whenValue ||
      (values.get requiredDimension).any allowedValues.contains

def satisfiesConstraints (values : OrderedMap String String) (constraints : List Constraint) :
    Bool :=
  constraints.all (Constraint.satisfied values)

/-- The state's value of the dimension is one of its boundary values. -/
def StateDimension.onBoundary (dimension : StateDimension F V) (values : OrderedMap String String) :
    Bool :=
  (values.get dimension.id).any dimension.boundaryValues.contains

def boundaryHits (values : OrderedMap String String) (dimensions : List (StateDimension F V)) :
    Nat :=
  (dimensions.filter fun dimension => dimension.onBoundary values).length

/-- The pairs of values a state covers, in order of their dimensions. -/
def statePairs (values : OrderedMap String String) : List (StateDimension F V) → List String
  | [] => []
  | left :: rest =>
    (rest.filterMap fun right =>
      match values.get left.id, values.get right.id with
      | some leftValue, some rightValue =>
        some s!"{left.id}={leftValue}|{right.id}={rightValue}"
      | _, _ => none)
    ++ statePairs values rest

variable [Score32 F]

def riskScore (values : OrderedMap String String) (dimensions : List (StateDimension F V)) : F :=
  (dimensions.map fun dimension =>
      Score32.mul (Score32.max dimension.riskWeight (Score32.ofNat 0))
        (if dimension.onBoundary values then Score32.oneAndHalf else Score32.ofNat 1)).foldl
    Score32.add (Score32.ofNat 0)

/-- The state of an assignment, scored. -/
def scoredState (dimensions : List (StateDimension F V)) (values : OrderedMap String String) :
    ProductState F where
  values := values
  score := riskScore values dimensions
  provenance := values.entries.map fun (dimension, value) => s!"dimension:{dimension}={value}"

/-- The riskier first; among equals the smaller key. -/
def ProductState.precedes (left right : ProductState F) : Bool :=
  if Score32.totalLe left.score right.score then
    if Score32.totalLe right.score left.score then decide (left.key ≤ right.key) else false
  else true

/-- What picking a state next is worth. -/
def stateUtility (dimensions : List (StateDimension F V)) (covered : OrderedSet String)
    (state : ProductState F) : F :=
  let newPairs := ((statePairs state.values dimensions).filter fun pair =>
    !covered.contains pair).length
  Score32.add
    (Score32.add (Score32.mul (Score32.ofNat newPairs) (Score32.ofNat 10))
      (Score32.mul (Score32.ofNat (boundaryHits state.values dimensions)) (Score32.ofNat 3)))
    state.score

/-- The last of the states that are worth most, and the others in order. -/
def pickBest (utility : ProductState F → F) :
    ProductState F → List (ProductState F) → ProductState F × List (ProductState F)
  | state, [] => (state, [])
  | state, next :: rest =>
    let best := pickBest utility next rest
    if Score32.totalLe (utility state) (utility best.1) then (best.1, state :: best.2)
    else (state, next :: rest)

/-- The loop that picks up to a number of states; with them the pairs they cover. -/
def selectStates (dimensions : List (StateDimension F V)) :
    Nat → OrderedSet String → List (ProductState F) → List (ProductState F) × OrderedSet String
  | 0, covered, _ => ([], covered)
  | _ + 1, covered, [] => ([], covered)
  | n + 1, covered, state :: rest =>
    let picked := pickBest (stateUtility dimensions covered) state rest
    let later := selectStates dimensions n
      (covered.extend (statePairs picked.1.values dimensions)) picked.2
    (picked.1 :: later.1, later.2)

def pairUniverse (states : List (ProductState F)) (dimensions : List (StateDimension F V)) :
    OrderedSet String :=
  OrderedSet.ofList (states.flatMap fun state => statePairs state.values dimensions)

def compileStateSpace (plan : StateSpacePlan F V) : CompiledStateSpace F :=
  if plan.dimensions.isEmpty then ⟨[], 0, Score32.ofNat 1, 0⟩
  else
    let expanded := expandStates plan.dimensions .empty
    let eligible := expanded.filter fun values => satisfiesConstraints values plan.constraints
    let all := (eligible.map (scoredState plan.dimensions)).insertionSort fun left right =>
      ProductState.precedes left right = true
    let target := min (max plan.maxStates 1) all.length
    let pairs := pairUniverse all plan.dimensions
    let selected := selectStates plan.dimensions target .empty all
    { states := selected.1
      totalUnconstrainedCombinations :=
        (plan.dimensions.map fun dimension => max dimension.values.length 1).prod
      pairCoverage :=
        if pairs.toList.isEmpty then Score32.ofNat 1
        else Score32.div (Score32.ofNat (selected.2.intersection pairs).length)
          (Score32.ofNat pairs.toList.length)
      eliminatedByConstraints := expanded.length - eligible.length }

end

/-! ## Affected states -/

def maxAffectedRoutes : Nat := 64
def maxAffectedRegions : Nat := 128
def maxAffectedRefs : Nat := 512
def maxAffectedContracts : Nat := 256
def maxAffectedEvidenceIds : Nat := 1024
def maxAffectedStates : Nat := 128

structure AffectedChangeIdentity where
  (candidateId patchDigest : String)
  changedProjectFiles : List String

/-- A change and what it touches. -/
structure AffectedStateInput (F V : Type) where
  baseRevision : String
  change : AffectedChangeIdentity
  (impactedRoutes impactedRegions impactedRefs impactedContracts : OrderedSet String)
  dimensions : List (StateDimension F V)
  constraints : List Constraint
  maxStates : Nat
  evidenceIds : List String
  (dependencyGraphComplete denominatorKnown : Bool)

structure AffectedStatePlan (F V : Type) where
  baseRevision : String
  change : AffectedChangeIdentity
  (impactedRoutes impactedRegions impactedRefs impactedContracts : List String)
  stateDimensions : List (StateDimension F V)
  compiledStates : List (ProductState F)
  riskScore : F
  evidenceProvenance : List String
  denominatorKnown : Bool
  eligibleStateCount : Option Nat
  pairCoverage : Option F
  (truncated incomplete : Bool)
  incompleteReasons : List String

/-- Why no states are compiled. -/
inductive AffectedStateCompileError
  | missingBaseRevision
  | missingCandidateIdentity
  | missingPatchDigest
  | noChangedProjectFiles
  | tooManyRoutes
  | tooManyRegions
  | tooManyRefs
  | tooManyContracts
  | tooManyEvidenceIds
  | invalidStateBound
  | emptyDimension (dimension : String)
  | duplicateDimension (dimension : String)
  | duplicateStateValue (dimension value : String)
deriving DecidableEq

def validateStateValues (dimension : String) (values : OrderedSet String) :
    List String → Except AffectedStateCompileError Unit
  | [] => .ok ()
  | value :: rest => do
    rejectIf (values.contains value = true) (.duplicateStateValue dimension value)
    validateStateValues dimension (values.insert value) rest

def validateDimensions {F V : Type} (dimensions : OrderedSet String) :
    List (StateDimension F V) → Except AffectedStateCompileError Unit
  | [] => .ok ()
  | dimension :: rest => do
    rejectIf (dimension.values.isEmpty) (.emptyDimension dimension.id)
    rejectIf (dimensions.contains dimension.id = true) (.duplicateDimension dimension.id)
    validateStateValues dimension.id .empty (dimension.values.map (·.id))
    validateDimensions (dimensions.insert dimension.id) rest

def AffectedStateInput.validate {F V : Type} (input : AffectedStateInput F V) :
    Except AffectedStateCompileError Unit := do
  rejectIf (trimIsEmpty input.baseRevision = true) .missingBaseRevision
  rejectIf (trimIsEmpty input.change.candidateId = true) .missingCandidateIdentity
  rejectIf (trimIsEmpty input.change.patchDigest = true) .missingPatchDigest
  rejectIf (input.change.changedProjectFiles.isEmpty) .noChangedProjectFiles
  rejectIf (maxAffectedRoutes < input.impactedRoutes.toList.length) .tooManyRoutes
  rejectIf (maxAffectedRegions < input.impactedRegions.toList.length) .tooManyRegions
  rejectIf (maxAffectedRefs < input.impactedRefs.toList.length) .tooManyRefs
  rejectIf (maxAffectedContracts < input.impactedContracts.toList.length) .tooManyContracts
  rejectIf (maxAffectedEvidenceIds < input.evidenceIds.length) .tooManyEvidenceIds
  rejectIf (input.maxStates = 0 ∨ maxAffectedStates < input.maxStates) .invalidStateBound
  validateDimensions .empty input.dimensions

/-- The values met for the first time, in order, up to a number of them. -/
def dedupeBounded (limit : Nat) : OrderedSet String → List String → List String
  | _, [] => []
  | seen, value :: rest =>
    if seen.contains value then dedupeBounded limit seen rest
    else if seen.toList.length + 1 = limit then [value]
    else value :: dedupeBounded limit (seen.insert value) rest

section
variable {F V : Type} [Score32 F]

def incompleteReasons (input : AffectedStateInput F V) (compiled eligible : Nat) : List String :=
  (if input.dependencyGraphComplete then [] else ["dependency/impact evidence is incomplete"]) ++
  (if input.denominatorKnown then [] else ["affected-state denominator is unknown"]) ++
  (if compiled < eligible then
    [s!"state compiler retained {compiled} of {eligible} eligible states"] else []) ++
  (if input.evidenceIds.isEmpty then ["affected-state plan has no evidence provenance"] else [])

def planRiskScore (frontierSize : Nat) (states : List (ProductState F)) (complete : Bool) : F :=
  let maxStateRisk := (states.map (·.score)).foldl Score32.max (Score32.ofNat 0)
  let uncertaintyPenalty := if complete then Score32.ofNat 0 else Score32.ofNat 25
  Score32.clamp
    (Score32.add (Score32.add (Score32.ofNat (min frontierSize 100)) maxStateRisk)
      uncertaintyPenalty)
    (Score32.ofNat 0) (Score32.ofNat 100)

def buildPlan (input : AffectedStateInput F V) (compiled : CompiledStateSpace F) :
    AffectedStatePlan F V :=
  let eligible := compiled.totalUnconstrainedCombinations - compiled.eliminatedByConstraints
  let reasons := incompleteReasons input compiled.states.length eligible
  let frontierSize := input.impactedRoutes.toList.length + input.impactedRegions.toList.length +
    input.impactedRefs.toList.length + input.impactedContracts.toList.length
  { baseRevision := input.baseRevision, change := input.change
    impactedRoutes := input.impactedRoutes.toList, impactedRegions := input.impactedRegions.toList
    impactedRefs := input.impactedRefs.toList, impactedContracts := input.impactedContracts.toList
    stateDimensions := input.dimensions, compiledStates := compiled.states
    riskScore := planRiskScore frontierSize compiled.states reasons.isEmpty
    evidenceProvenance := dedupeBounded maxAffectedEvidenceIds .empty input.evidenceIds
    denominatorKnown := input.denominatorKnown
    eligibleStateCount := if input.denominatorKnown then some eligible else none
    pairCoverage := if input.denominatorKnown then some compiled.pairCoverage else none
    truncated := decide (compiled.states.length < eligible), incomplete := !reasons.isEmpty
    incompleteReasons := reasons }

def compileAffectedStatePlan (input : AffectedStateInput F V) :
    Except AffectedStateCompileError (AffectedStatePlan F V) := do
  input.validate
  return buildPlan input (compileStateSpace
    { dimensions := input.dimensions, constraints := input.constraints
      maxStates := min input.maxStates maxAffectedStates })

/-- A plan lists the impact it was given. -/
theorem compileAffectedStatePlan_eq_ok {input : AffectedStateInput F V}
    {plan : AffectedStatePlan F V} (h : compileAffectedStatePlan input = .ok plan) :
    ∃ compiled, plan = buildPlan input compiled := by
  rw [compileAffectedStatePlan, bind_eq_ok] at h
  obtain ⟨_, _, hplan⟩ := h
  cases hplan
  exact ⟨_, rfl⟩

end

def stateValuesByDimension {F V : Type} (plan : AffectedStatePlan F V) :
    OrderedMap String (OrderedSet String) :=
  (plan.compiledStates.flatMap fun state => state.values.entries).foldl
    (fun values (dimension, value) =>
      values.insert dimension (((values.get dimension).getD .empty).insert value))
    .empty

end Localview
