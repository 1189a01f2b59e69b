import Localview.StateSpace
import Mathlib.Data.List.Infix

/-! # Partial revalidation

What has to be checked again after a change: the affected states and their surroundings,
or, where the affected states are not all known, the whole universe if there is one.
-/
namespace Localview

/-- Whether only a part is validated again. -/
inductive RevalidationMode
  | partially
  | escalated

/-- All that can be validated. -/
structure RevalidationUniverse where
  (routes regions refs contracts responsiveWidths : OrderedSet String)
  (flowCheckpoints visualBaselines : OrderedSet String)
  (sourceSemanticChecks stateKeys : OrderedSet String)
  denominatorKnown : Bool

/-- What a change touches. -/
structure PartialRevalidationInput (F V : Type) where
  affected : AffectedStatePlan F V
  (impactedFlowCheckpoints relevantVisualBaselines sourceSemanticChecks : OrderedSet String)
  knownUniverse : Option RevalidationUniverse

/-- What is validated again. -/
structure PartialRevalidationPlan where
  mode : RevalidationMode
  (routes regions refs contracts responsiveWidths flowCheckpoints visualBaselines : List String)
  (sourceSemanticChecks stateKeys escalationReasons : List String)
  (denominatorKnown completeClaimAllowed : Bool)

def responsiveDimension (dimension : String) : Bool :=
  let normalized := dimension.toLower.toList
  let names := ["viewport".toList, "width".toList, "responsive".toList]
  names.any fun name => decide (name <:+: normalized)

section
variable {F V : Type} (input : PartialRevalidationInput F V)

def affectedWidths (plan : AffectedStatePlan F V) : OrderedSet String :=
  OrderedSet.ofList <| (stateValuesByDimension plan).entries.flatMap fun (dimension, values) =>
    if responsiveDimension dimension then values.toList else []

/-- Why the affected states are not enough. -/
def escalationCauses (plan : AffectedStatePlan F V) : List String :=
  (if plan.incomplete then plan.incompleteReasons else []) ++
  (if plan.truncated then ["affected state-space was truncated"] else []) ++
  (if plan.denominatorKnown then [] else ["affected-state denominator is unknown"])

/-- What an escalation takes over of the universe. -/
def widen (mode : RevalidationMode) (known : Option RevalidationUniverse)
    (part : RevalidationUniverse → OrderedSet String) (own : OrderedSet String) : List String :=
  match mode, known with
  | .escalated, some known => (own.extend (part known).toList).toList
  | _, _ => own.toList

def planPartialRevalidation : PartialRevalidationPlan :=
  let causes := escalationCauses input.affected
  let mode : RevalidationMode := if causes.isEmpty then .partially else .escalated
  let widened := widen mode input.knownUniverse
  let denominatorKnown :=
    match mode, input.knownUniverse with
    | .partially, _ => input.affected.denominatorKnown && !input.affected.truncated
    | .escalated, some known => known.denominatorKnown
    | .escalated, none => false
  let reasons := causes ++
    match mode, input.knownUniverse with
    | .partially, _ => []
    | .escalated, some known =>
      if known.denominatorKnown then [] else ["escalation universe denominator is also unknown"]
    | .escalated, none =>
      ["no complete revalidation universe is available for required escalation"]
  { mode := mode, routes := widened (·.routes) (.ofList input.affected.impactedRoutes)
    regions := widened (·.regions) (.ofList input.affected.impactedRegions)
    refs := widened (·.refs) (.ofList input.affected.impactedRefs)
    contracts := widened (·.contracts) (.ofList input.affected.impactedContracts)
    responsiveWidths := widened (·.responsiveWidths) (affectedWidths input.affected)
    flowCheckpoints := widened (·.flowCheckpoints) input.impactedFlowCheckpoints
    visualBaselines := widened (·.visualBaselines) input.relevantVisualBaselines
    sourceSemanticChecks := widened (·.sourceSemanticChecks) input.sourceSemanticChecks
    stateKeys := widened (·.stateKeys)
      (.ofList (input.affected.compiledStates.map (·.key)))
    escalationReasons := (OrderedSet.ofList reasons).toList
    denominatorKnown := denominatorKnown
    completeClaimAllowed := denominatorKnown }

end
end Localview
