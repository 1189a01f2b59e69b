import Mathlib.Data.Prod.Lex
import Localview.DistinctSort
import Localview.UxContracts
import Mathlib.Algebra.Order.Ring.Unbundled.Rat

/-! # Layout analysis

The audit of a page's elements.  Phase after phase pushes the issues it finds to one list that
is full at 256, and what it holds is sorted by severity in the end.

Coordinates are of any type that has the operations of `f64`; confidences are the decimals the
source writes.  The evidence texts are left out.
-/
namespace Localview.Layout
open Binary64 DistinctSort List

/-- What else the analysis does with `f64`. -/
class LayoutFloat (F : Type) extends Binary64 F where
  /-- The literal with so many digits after the point. -/
  decimal : Nat → Nat → F
  neg : F → F
  (sub div min max : F → F → F)
  abs : F → F
  /-- `f64::total_cmp` -/
  totalLe : F → F → Bool

open LayoutFloat

instance rationalLayout : LayoutFloat ℚ where
  decimal digits places := digits / 10 ^ places
  neg x := -x
  sub x y := x - y
  div x y := x / y
  min x y := if x ≤ y then x else y
  max x y := if x ≤ y then y else x
  abs x := if 0 ≤ x then x else -x
  totalLe x y := decide (x ≤ y)

def maxLayoutElements : Nat := 512
def maxLayoutIssues : Nat := 256
def maxLayoutFacts : Nat := 256
def maxSpacingSamples : Nat := 2048
/-- The turns that a walk over ancestors is given. -/
def maxAncestorSteps : Nat := 16

/-- Whether an issue is certain. -/
inductive LayoutIssueClass
  | deterministic | heuristic
  deriving DecidableEq

/-- The CSS display of an element. -/
inductive DisplayMode
  | block | inline | flex | inlineFlex | grid | inlineGrid | other

/-- The CSS overflow of an element. -/
inductive OverflowMode
  | visible | hidden | clip | auto | scroll
  deriving DecidableEq

namespace OverflowMode

def clips : OverflowMode → Bool
  | hidden | clip => true
  | visible | auto | scroll => false

def scrolls : OverflowMode → Bool
  | auto | scroll => true
  | visible | hidden | clip => false

def constrains (mode : OverflowMode) : Bool := mode.clips || mode.scrolls

end OverflowMode

/-- The CSS position of an element. -/
inductive PositionMode
  | static | relative | absolute | fixed | sticky
  deriving DecidableEq

structure LayoutRect (F : Type) where
  (x y width height : F)

structure LayoutStyleEvidence where
  display : DisplayMode := .other
  overflowX : Option OverflowMode := none
  overflowY : Option OverflowMode := none
  position : Option PositionMode := none

structure VisibilityEvidence where
  inViewport : Option Bool := none
  clipped : Option Bool := none
  occluded : Option Bool := none
  occludedBy : Option String := none
  sampled : Bool := false

structure LayoutElement (F : Type) where
  reference : String
  rect : LayoutRect F
  parent : Option String
  interactive : Bool := false
  /-- The four paddings. -/
  padding : Option (F × F × F × F) := none
  style : LayoutStyleEvidence := {}
  visibility : VisibilityEvidence := {}

/-- How bad an issue is. -/
inductive Severity
  | info | warning | error
  deriving DecidableEq

/-- Something wrong with the layout. -/
structure LayoutIssue where
  code : String
  severity : Severity
  confidence : ℚ
  issueClass : LayoutIssueClass
  refs : List String
  message : String
  deriving DecidableEq

/-- Something worth knowing of the layout. -/
structure LayoutFact where
  code : String
  refs : List String

/-- What a spacing was measured on. -/
inductive SpacingSource
  | siblingGap | padding | edgeDistance
  deriving DecidableEq

structure SpacingFamily (F : Type) where
  value : F
  occurrences : Nat
  sources : List SpacingSource

structure LayoutAnalysis (F : Type) where
  issues : List LayoutIssue
  facts : List LayoutFact
  spacingFamilies : List (SpacingFamily F)
  analyzedNodes : Nat
  inputTruncated : Bool

def pushIssue (issues : List LayoutIssue) (issue : LayoutIssue) : List LayoutIssue :=
  if issues.length < maxLayoutIssues then issues ++ [issue] else issues

def pushFact (facts : List LayoutFact) (fact : LayoutFact) : List LayoutFact :=
  if facts.length < maxLayoutFacts then facts ++ [fact] else facts

/-! ## Geometry -/

section
variable {F : Type} [LayoutFloat F]

def geometryEpsilon : F := decimal 5 1
def spacingClusterEpsilon : F := decimal 75 2
def alignmentClusterEpsilon : F := ofNat 1
def alignmentOutlierThreshold : F := decimal 25 1
def siblingOverlapThreshold : F := decimal 35 2
def substantialOverlapThreshold : F := decimal 60 2

def rectRight (rect : LayoutRect F) : F := add rect.x rect.width
def rectBottom (rect : LayoutRect F) : F := add rect.y rect.height
def finitePositive (value : F) : Bool := isFinite value && lt (ofNat 0) value

def outsideRect (child parent : LayoutRect F) : Bool × Bool :=
  (lt child.x (sub parent.x geometryEpsilon) ||
      lt (add (rectRight parent) geometryEpsilon) (rectRight child),
    lt child.y (sub parent.y geometryEpsilon) ||
      lt (add (rectBottom parent) geometryEpsilon) (rectBottom child))

def outsideViewport (rect : LayoutRect F) (viewport : F × F) : Bool × Bool :=
  (lt rect.x (neg geometryEpsilon) || lt (add viewport.1 geometryEpsilon) (rectRight rect),
    lt rect.y (neg geometryEpsilon) || lt (add viewport.2 geometryEpsilon) (rectBottom rect))

def meaningfulOverlap (left right : LayoutRect F) : F :=
  let width := sub (min (rectRight left) (rectRight right)) (max left.x right.x)
  let height := sub (min (rectBottom left) (rectBottom right)) (max left.y right.y)
  if le width (ofNat 0) || le height (ofNat 0) then ofNat 0
  else
    let intersection := mul width height
    let denominator :=
      max (min (mul left.width left.height) (mul right.width right.height)) (ofNat 1)
    div intersection denominator

def rangesOverlap (leftStart leftEnd rightStart rightEnd : F) : Bool :=
  lt (add rightStart geometryEpsilon) leftEnd && lt (add leftStart geometryEpsilon) rightEnd

/-- What `classify_geometry` pushes. -/
def geometryIssue (element : LayoutElement F) : Option LayoutIssue :=
  let rect := element.rect
  if !isFinite rect.x || !isFinite rect.y || !isFinite rect.width || !isFinite rect.height ||
      !isFinite (rectRight rect) || !isFinite (rectBottom rect) ||
      lt rect.width (ofNat 0) || lt rect.height (ofNat 0) then
    some { code := "invalid_geometry", severity := .error, confidence := 1
           issueClass := .deterministic, refs := [element.reference]
           message :=
             "Element geometry is invalid and was excluded from relational analysis" }
  else if le rect.width (ofNat 0) || le rect.height (ofNat 0) then
    some { code := "zero_area", severity := .warning, confidence := 1
           issueClass := .deterministic, refs := [element.reference]
           message := "Element has zero visual area" }
  else none

/-- What `valid` holds for an element. -/
def isValid (element : LayoutElement F) : Bool := (geometryIssue element).isNone

def validElements (elements : List (LayoutElement F)) : List (LayoutElement F) :=
  elements.filter isValid

def indexed (elements : List (LayoutElement F)) (reference : String) :
    Option (LayoutElement F) :=
  (elements.filter fun element => element.reference = reference).getLast?

def isFixedOrSticky (element : LayoutElement F) : Bool :=
  element.style.position = some .fixed || element.style.position = some .sticky

end

/-! ## Containers, overflow and ancestors -/

section
variable {F : Type} [LayoutFloat F] (elements : List (LayoutElement F))

def containerFact (element : LayoutElement F) : Option LayoutFact :=
  match element.style.display with
  | .flex | .inlineFlex => some { code := "flex_container", refs := [element.reference] }
  | .grid | .inlineGrid => some { code := "grid_container", refs := [element.reference] }
  | _ => none

/-- The parent of an element that takes part in the relations. -/
def validParent (element : LayoutElement F) : Option (LayoutElement F) :=
  (element.parent.bind (indexed elements)).filter isValid

open OverflowMode

def crossingFacts (element parent : LayoutElement F) : List LayoutFact :=
  let (overflowX, overflowY) := outsideRect element.rect parent.rect
  let clipped := (overflowX && parent.style.overflowX.any clips) ||
    (overflowY && parent.style.overflowY.any clips)
  let scrolled := (overflowX && parent.style.overflowX.any scrolls) ||
    (overflowY && parent.style.overflowY.any scrolls)
  let refs := [parent.reference, element.reference]
  (if clipped then [{ code := "intentional_clip", refs }] else []) ++
    if scrolled then [{ code := "scroll_container_overflow", refs }] else []

def containerOverflow (element parent : LayoutElement F) : Option LayoutIssue :=
  let (overflowX, overflowY) := outsideRect element.rect parent.rect
  let constrainedX := overflowX && parent.style.overflowX.any constrains
  let constrainedY := overflowY && parent.style.overflowY.any constrains
  let accidentalX := overflowX && parent.style.overflowX = some .visible && !constrainedX
  let accidentalY := overflowY && parent.style.overflowY = some .visible && !constrainedY
  if (accidentalX || accidentalY) && element.visibility.clipped ≠ some true then
    some { code := "container_overflow", severity := .warning, confidence := 1
           issueClass := .deterministic, refs := [parent.reference, element.reference]
           message :=
             "Element extends beyond a parent whose observed overflow axis is visible" }
  else none

def axisMode (xAxis : Bool) (element : LayoutElement F) : Option OverflowMode :=
  if xAxis then element.style.overflowX else element.style.overflowY

def constrainsAxis (xAxis : Bool) (element : LayoutElement F) : Bool :=
  (axisMode xAxis element).any constrains

/-- The loop of `has_constraining_ancestor`. -/
def constrainedFrom (xAxis : Bool) : Nat → (parent : Option String) → (visited : List String) →
    Bool
  | 0, _, _ => false
  | _ + 1, none, _ => false
  | steps + 1, some reference, visited =>
    if reference ∈ visited then false
    else
      match indexed elements reference with
      | none => false
      | some ancestor =>
        if constrainsAxis xAxis ancestor then true
        else constrainedFrom xAxis steps ancestor.parent (reference :: visited)

def hasConstrainingAncestor (element : LayoutElement F) (xAxis : Bool) : Bool :=
  constrainedFrom elements xAxis maxAncestorSteps element.parent []

def parentReference (reference : String) : Option String :=
  (indexed elements reference).bind (·.parent)

/-- The loop of `is_ancestor`. -/
def isAncestorFrom (possibleAncestor : String) : Nat → (current : Option String) →
    (visited : List String) → Bool
  | 0, _, _ => false
  | _ + 1, none, _ => false
  | steps + 1, some reference, visited =>
    if reference = possibleAncestor then true
    else if reference ∈ visited then false
    else isAncestorFrom possibleAncestor steps (parentReference elements reference)
      (reference :: visited)

def isAncestor (possibleAncestor descendant : String) : Bool :=
  isAncestorFrom elements possibleAncestor maxAncestorSteps
    (parentReference elements descendant) []

def viewportOverflow (viewport : F × F) (element : LayoutElement F) : Option LayoutIssue :=
  let (viewportX, rawViewportY) := outsideViewport element.rect viewport
  let viewportY := rawViewportY && isFixedOrSticky element
  if !(viewportX || viewportY) || element.visibility.inViewport = some false then none
  else
    let constrainedX := viewportX && hasConstrainingAncestor elements element true
    let constrainedY := viewportY && hasConstrainingAncestor elements element false
    let uncontainedX := viewportX && !constrainedX
    let uncontainedY := viewportY && !constrainedY
    if !(uncontainedX || uncontainedY) || element.visibility.clipped = some true then none
    else
      some { code := "viewport_overflow", severity := .warning, confidence := 1
             issueClass := .deterministic, refs := [element.reference]
             message := "Element extends beyond the observed viewport without " ++
               "a constraining ancestor on that axis" }

/-- What `analyze_overflow` pushes for an element. -/
def overflowIssues (viewport : F × F) (element : LayoutElement F) : List LayoutIssue :=
  ((validParent elements element).bind (containerOverflow element)).toList ++
    (viewportOverflow elements viewport element).toList

def overflowFacts (element : LayoutElement F) : List LayoutFact :=
  (validParent elements element).toList.flatMap (crossingFacts element)

end

/-! ## Occlusion and collisions -/

section
variable {F : Type} [LayoutFloat F] (elements : List (LayoutElement F))

def occlusionIssue (element : LayoutElement F) : Option LayoutIssue :=
  if !element.interactive || !element.visibility.sampled ||
      element.visibility.occluded ≠ some true then none
  else
    match element.visibility.occludedBy with
    | none => none
    | some blockerRef =>
      match (indexed elements blockerRef).filter isValid with
      | none => none
      | some blocker =>
        some { code := "control_occluded", severity := .error, confidence := 1
               issueClass := .deterministic, refs := [element.reference, blocker.reference]
               message :=
                 "Interactive control center-point was observed behind another region" }

def occlusionPairAuthority (left right : LayoutElement F) : Bool :=
  (left.visibility.sampled && left.visibility.occluded = some true &&
      left.visibility.occludedBy = some right.reference) ||
    (right.visibility.sampled && right.visibility.occluded = some true &&
      right.visibility.occludedBy = some left.reference)

/-- What `analyze_collisions` pushes for a pair. -/
def collisionIssue (left right : LayoutElement F) : Option LayoutIssue :=
  if isAncestor elements left.reference right.reference ||
      isAncestor elements right.reference left.reference then none
  else
    let overlap := meaningfulOverlap left.rect right.rect
    let refs := [left.reference, right.reference]
    if le overlap (ofNat 0) then none
    else if (isFixedOrSticky left || isFixedOrSticky right) && le (decimal 10 2) overlap &&
        occlusionPairAuthority left right then
      some { code := "fixed_sticky_collision", severity := .error, confidence := 1
             issueClass := .deterministic, refs
             message := "Fixed/sticky overlap is corroborated by sampled occlusion evidence" }
    else if left.parent.isSome && left.parent = right.parent &&
        le siblingOverlapThreshold overlap then
      some { code := "sibling_collision", severity := .warning, confidence := 90 / 100
             issueClass := .heuristic, refs, message := "Sibling geometry overlaps substantially" }
    else if le substantialOverlapThreshold overlap &&
        (left.interactive || right.interactive) then
      some { code := "substantial_overlap", severity := .warning, confidence := 78 / 100
             issueClass := .heuristic, refs
             message :=
               "Unrelated visible regions overlap substantially; intent is not proven" }
    else none

/-- Each element with the later ones. -/
def laterPairs {α : Type} : List α → List (α × α)
  | [] => []
  | a :: rest => rest.map (a, ·) ++ laterPairs rest

end

/-! ## Spacing -/

section
variable {F : Type} [LayoutFloat F]

/-- A spacing measured once. -/
structure SpacingSample (F : Type) where
  value : F
  source : SpacingSource
  parent : Option String
  refs : List String

section
variable (samples : List (SpacingSample F))

def pushSpacingSample (sample : SpacingSample F) :
    List (SpacingSample F) :=
  if maxSpacingSamples ≤ samples.length || !finitePositive sample.value then samples
  else samples ++ [sample]

def childrenByParent (elements : List (LayoutElement F)) :
    OrderedMap String (List (LayoutElement F)) :=
  (validElements elements).foldl (fun groups element =>
    match element.parent with
    | none => groups
    | some parent => groups.insert parent (((groups.get parent).getD []) ++ [element])) .empty

def paddingSamples (element : LayoutElement F) : List (SpacingSample F) :=
  match element.padding with
  | none => []
  | some (top, right, bottom, left) =>
    [top, right, bottom, left].map fun value =>
      { value, source := .padding, parent := some element.reference
        refs := [element.reference] }

/-- The distances of a child to the edges of its parent. -/
def edgeSamples (parentRef : String) (parent child : LayoutElement F) :
    List (SpacingSample F) :=
  ([sub child.rect.x parent.rect.x, sub (rectRight parent.rect) (rectRight child.rect),
    sub child.rect.y parent.rect.y, sub (rectBottom parent.rect) (rectBottom child.rect)].filter
      fun value => le (neg geometryEpsilon) value).map fun value =>
    { value := max value (ofNat 0), source := .edgeDistance, parent := some parentRef
      refs := [parentRef, child.reference] }

/-- `windows(2)` -/
def neighbours {α : Type} : List α → List (α × α)
  | a :: b :: rest => (a, b) :: neighbours (b :: rest)
  | _ => []

/-- The gap between two neighbours that overlap across. -/
def gapSample (parentRef : String) (first second : LayoutElement F) (gap : F)
    (across : Bool) : List (SpacingSample F) :=
  if across && le (neg geometryEpsilon) gap then
    [{ value := max gap (ofNat 0), source := .siblingGap, parent := some parentRef
       refs := [first.reference, second.reference] }]
  else []

def horizontalGap (parentRef : String) (pair : LayoutElement F × LayoutElement F) :
    List (SpacingSample F) :=
  gapSample parentRef pair.1 pair.2 (sub pair.2.rect.x (rectRight pair.1.rect))
    (rangesOverlap pair.1.rect.y (rectBottom pair.1.rect) pair.2.rect.y (rectBottom pair.2.rect))

def verticalGap (parentRef : String) (pair : LayoutElement F × LayoutElement F) :
    List (SpacingSample F) :=
  gapSample parentRef pair.1 pair.2 (sub pair.2.rect.y (rectBottom pair.1.rect))
    (rangesOverlap pair.1.rect.x (rectRight pair.1.rect) pair.2.rect.x (rectRight pair.2.rect))

def groupSamples (elements : List (LayoutElement F))
    (group : String × List (LayoutElement F)) : List (SpacingSample F) :=
  let byX := group.2.insertionSort fun a b => totalLe a.rect.x b.rect.x
  let byY := group.2.insertionSort fun a b => totalLe a.rect.y b.rect.y
  (indexed elements group.1).toList.flatMap (fun parent =>
      group.2.flatMap (edgeSamples group.1 parent)) ++
    (neighbours byX).flatMap (horizontalGap group.1) ++
    (neighbours byY).flatMap (verticalGap group.1)

def spacingSamples (elements : List (LayoutElement F)) : List (SpacingSample F) :=
  ((validElements elements).flatMap paddingSamples ++
    (childrenByParent elements).entries.flatMap (groupSamples elements)).foldl
      pushSpacingSample []

def SpacingSource.rank : SpacingSource → Nat
  | siblingGap => 0
  | padding => 1
  | edgeDistance => 2

def sum (values : List F) : F := values.foldl add (ofNat 0)

def pushSpacingFamily (output : List (SpacingFamily F)) :
    List (SpacingFamily F) :=
  if samples.length < 2 then output
  else
    output ++ [{
      value := div (sum (samples.map (·.value))) (ofNat samples.length)
      occurrences := samples.length
      sources := ((samples.map (·.source)).insertionSort fun a b => a.rank ≤ b.rank).destutter
        (· ≠ ·) }]

/-- One turn of the loop of `infer_spacing_families`: the current run and the families. -/
def growFamily (acc : List (SpacingSample F) × List (SpacingFamily F))
    (sample : SpacingSample F) : List (SpacingSample F) × List (SpacingFamily F) :=
  if acc.1.getLast?.any fun previous =>
      lt spacingClusterEpsilon (abs (sub sample.value previous.value)) then
    ([sample], pushSpacingFamily acc.1 acc.2)
  else (acc.1 ++ [sample], acc.2)

def inferSpacingFamilies : List (SpacingFamily F) :=
  let ordered := (samples.filter fun sample => finitePositive sample.value).insertionSort
    fun a b => totalLe a.value b.value
  let (current, families) := ordered.foldl growFamily ([], [])
  pushSpacingFamily current families

/-- `cluster_sample_refs` and `cluster_index_values`: runs of values that are near the one
before. -/
def clusterBy {α : Type} (value : α → F) (epsilon : F) (values : List α) : List (List α) :=
  values.foldl (fun clusters a =>
    match clusters.getLast? with
    | some cluster =>
      if cluster.getLast?.any fun previous => le (abs (sub (value a) (value previous))) epsilon
      then clusters.dropLast ++ [cluster ++ [a]]
      else clusters ++ [[a]]
    | none => [[a]]) []

/-- `max_by_key(len)`: the last of the longest. -/
def longest {α : Type} : List (List α) → Option (List α)
  | [] => none
  | cluster :: rest =>
    some (rest.foldl (fun best next => if best.length ≤ next.length then next else best) cluster)

/-- The outliers of one parent's samples of one source. -/
def spacingOutliers (parent : String) (group : List (SpacingSample F)) : List LayoutIssue :=
  if group.length < 3 then []
  else
    let ordered := group.insertionSort fun a b => totalLe a.value b.value
    match longest (clusterBy (·.value) spacingClusterEpsilon ordered) with
    | none => []
    | some family =>
      if family.length < 2 then []
      else
        let expected := div (sum (family.map (·.value))) (ofNat family.length)
        let threshold : F := max (ofNat 2) (mul (abs expected) (decimal 20 2))
        (ordered.filter fun sample => !le (abs (sub sample.value expected)) threshold).map
          fun sample =>
            { code := "spacing_outlier", severity := .info, confidence := 82 / 100
              issueClass := .heuristic, refs := sortDedup (parent :: sample.refs)
              message :=
                "Local spacing measurement deviates from a recurring inferred family" }

def samplesByParent : OrderedMap (String ×ₗ Nat) (List (SpacingSample F)) :=
  samples.foldl (fun groups sample =>
    match sample.parent with
    | none => groups
    | some parent =>
      let key := toLex (parent, sample.source.rank)
      groups.insert key (((groups.get key).getD []) ++ [sample])) .empty

/-- What `analyze_spacing_outliers` pushes. -/
def spacingIssues : List LayoutIssue :=
  (samplesByParent samples).entries.flatMap fun group =>
    spacingOutliers (ofLex group.1).1 group.2

end

end

/-! ## Alignment -/

section
variable {F : Type} [LayoutFloat F]

/-- How far an alignment is off. -/
structure AlignmentCandidate (F : Type) where
  deviation : F
  support : Nat

/-- The five dimensions that siblings are aligned in. -/
def alignmentMeasures : List (LayoutRect F → F) :=
  [(·.x), rectRight, fun rect => add rect.x (div rect.width (ofNat 2)), (·.y), rectBottom]

/-- The better of two candidates of one element. -/
def replaceCandidate (best : OrderedMap String (AlignmentCandidate F)) (reference : String)
    (candidate : AlignmentCandidate F) : OrderedMap String (AlignmentCandidate F) :=
  let replace := match best.get reference with
    | none => true
    | some current => current.support < candidate.support ||
        (candidate.support = current.support && lt candidate.deviation current.deviation)
  if replace then best.insert reference candidate else best

/-- The outliers of one dimension among the candidates. -/
def measureAlignment (children : List (LayoutElement F))
    (best : OrderedMap String (AlignmentCandidate F)) (measure : LayoutRect F → F) :
    OrderedMap String (AlignmentCandidate F) :=
  let values := ((children.map fun child => (child.reference, measure child.rect)).filter
    fun value => isFinite value.2).insertionSort fun a b => totalLe a.2 b.2
  match longest (clusterBy (·.2) alignmentClusterEpsilon values) with
  | none => best
  | some family =>
    if family.length < 2 then best
    else
      let expected := div (sum (family.map (·.2))) (ofNat family.length)
      values.foldl (fun best value =>
        let deviation := LayoutFloat.abs (sub value.2 expected)
        if le deviation alignmentOutlierThreshold then best
        else replaceCandidate best value.1 { deviation, support := family.length }) best

def alignmentOutliers (children : List (LayoutElement F)) : List LayoutIssue :=
  if children.length < 3 then []
  else
    (alignmentMeasures.foldl (measureAlignment children) .empty).entries.map fun candidate =>
      { code := "alignment_outlier", severity := .info
        confidence := Min.min (70 / 100 + 5 / 100 * (candidate.2.support : ℚ)) (92 / 100)
        issueClass := .heuristic, refs := [candidate.1]
        message := "Element deviates from a local sibling alignment family" }

/-- What `analyze_alignment` pushes. -/
def alignmentIssues (elements : List (LayoutElement F)) : List LayoutIssue :=
  (childrenByParent elements).values.flatMap alignmentOutliers

end

/-! ## The analysis -/

def severityRank : Severity → Nat
  | .info => 1
  | .warning => 2
  | .error => 3

/-- The order the issues are sorted in: the most severe first, then the most confident. -/
def issueLe (left right : LayoutIssue) : Bool :=
  severityRank right.severity < severityRank left.severity ||
    (severityRank right.severity = severityRank left.severity &&
      (right.confidence < left.confidence ||
        (right.confidence = left.confidence &&
          (left.code < right.code ||
            (left.code = right.code && left.refs ≤ right.refs)))))

section
variable {F : Type} [LayoutFloat F]

def invalidViewport : LayoutIssue :=
  { code := "invalid_viewport_geometry", severity := .error, confidence := 1
    issueClass := .deterministic, refs := []
    message := "Viewport geometry is invalid; layout audit failed closed" }

/-- The issues of each phase, in the order the phases push them. -/
def phases (elements : List (LayoutElement F)) (viewport : F × F) : List (List LayoutIssue) :=
  [elements.filterMap geometryIssue,
    (validElements elements).flatMap (overflowIssues elements viewport),
    (validElements elements).filterMap (occlusionIssue elements),
    (laterPairs (validElements elements)).filterMap fun pair =>
      collisionIssue elements pair.1 pair.2,
    spacingIssues (spacingSamples elements),
    alignmentIssues elements]

def analyze (input : List (LayoutElement F)) (viewport : F × F) : LayoutAnalysis F :=
  let elements := input.take maxLayoutElements
  let inputTruncated : Bool := maxLayoutElements < input.length
  if !finitePositive viewport.1 || !finitePositive viewport.2 then
    { issues := pushIssue [] invalidViewport, facts := [], spacingFamilies := []
      analyzedNodes := elements.length, inputTruncated }
  else
    let containers := (validElements elements).filterMap containerFact
    let crossings := (validElements elements).flatMap (overflowFacts elements)
    let pushed := (phases elements viewport).foldl
      (fun issues found => found.foldl pushIssue issues) []
    { issues := pushed.insertionSort fun a b => issueLe a b
      facts := (containers ++ crossings).foldl pushFact []
      spacingFamilies := inferSpacingFamilies (spacingSamples elements)
      analyzedNodes := elements.length, inputTruncated }

/-- What the phases detect, with no cap. -/
def detected (input : List (LayoutElement F)) (viewport : F × F) : List LayoutIssue :=
  if !finitePositive viewport.1 || !finitePositive viewport.2 then [invalidViewport]
  else (phases (input.take maxLayoutElements) viewport).flatten

/-! ## What a detector pushes -/

variable {elements : List (LayoutElement F)} {element parent left right : LayoutElement F}
  {viewport : F × F} {issue : LayoutIssue}

theorem geometryIssue_eq_some (h : geometryIssue element = some issue) :
    issue.severity ≠ .info ∧ issue.code ∈ ["invalid_geometry", "zero_area"] := by
  simp only [geometryIssue] at h
  split at h
  · cases h
    exact ⟨Severity.noConfusion, by simp⟩
  · split at h
    · cases h
      exact ⟨Severity.noConfusion, by simp⟩
    · cases h

theorem containerOverflow_eq_some (h : containerOverflow element parent = some issue) :
    issue.severity = .warning ∧ issue.code = "container_overflow" := by
  simp only [containerOverflow] at h
  split at h
  · cases h
    exact ⟨rfl, rfl⟩
  · cases h

theorem viewportOverflow_eq_some (h : viewportOverflow elements viewport element = some issue) :
    issue.severity = .warning ∧ issue.code = "viewport_overflow" ∧
      issue.refs = [element.reference] := by
  simp only [viewportOverflow] at h
  split at h
  · cases h
  · split at h
    · cases h
    · cases h
      exact ⟨rfl, rfl, rfl⟩

theorem occlusionIssue_eq_some (h : occlusionIssue elements element = some issue) :
    issue.severity = .error ∧ issue.code = "control_occluded" := by
  unfold occlusionIssue at h
  split at h
  · cases h
  · split at h
    · cases h
    · split at h
      · cases h
      · cases h
        exact ⟨rfl, rfl⟩

def collisionCodes : List String :=
  ["fixed_sticky_collision", "sibling_collision", "substantial_overlap"]

theorem collisionIssue_eq_some (h : collisionIssue elements left right = some issue) :
    issue.severity ≠ .info ∧ issue.code ∈ collisionCodes ∧
      issue.refs = [left.reference, right.reference] ∧
      isAncestor elements left.reference right.reference = false ∧
      isAncestor elements right.reference left.reference = false := by
  unfold collisionIssue at h
  rcases ite_eq_iff.mp h with ⟨hrelated, h⟩ | ⟨hrelated, h⟩
  · cases h
  · rw [Bool.not_eq_true, Bool.or_eq_false_iff] at hrelated
    simp only at h
    split at h
    · cases h
    split at h
    · cases h
      exact ⟨Severity.noConfusion, by simp [collisionCodes], rfl, hrelated⟩
    split at h
    · cases h
      exact ⟨Severity.noConfusion, by simp [collisionCodes], rfl, hrelated⟩
    split at h
    · cases h
      exact ⟨Severity.noConfusion, by simp [collisionCodes], rfl, hrelated⟩
    · cases h

theorem of_mem_spacingIssues {samples : List (SpacingSample F)}
    (h : issue ∈ spacingIssues samples) :
    issue.severity = .info ∧ issue.code = "spacing_outlier" := by
  obtain ⟨group, -, h⟩ := mem_flatMap.mp h
  unfold spacingOutliers at h
  split at h
  · cases h
  simp only at h
  split at h
  · cases h
  split at h
  · cases h
  obtain ⟨sample, -, rfl⟩ := mem_map.mp h
  exact ⟨rfl, rfl⟩

theorem of_mem_alignmentIssues (h : issue ∈ alignmentIssues elements) :
    issue.severity = .info ∧ issue.code = "alignment_outlier" := by
  obtain ⟨children, -, h⟩ := mem_flatMap.mp h
  unfold alignmentOutliers at h
  split at h
  · cases h
  obtain ⟨candidate, -, rfl⟩ := mem_map.mp h
  exact ⟨rfl, rfl⟩

/-- Pushing stops at the cap. -/
theorem foldl_pushIssue {issues : List LayoutIssue} (hle : issues.length ≤ maxLayoutIssues)
    (found : List LayoutIssue) :
    found.foldl pushIssue issues = (issues ++ found).take maxLayoutIssues := by
  induction found generalizing issues with
  | nil => rw [append_nil, take_of_length_le hle]; rfl
  | cons issue found ih =>
    rw [foldl_cons, pushIssue]
    by_cases hlt : issues.length < maxLayoutIssues
    · rw [if_pos hlt, ih (by rw [length_append]; exact hlt), append_assoc]
      rfl
    · have hfull : issues.length = maxLayoutIssues := Nat.le_antisymm hle (Nat.not_lt.mp hlt)
      rw [if_neg hlt, ih hle, take_append_of_le_length (by omega),
        take_append_of_le_length (by omega)]

theorem take_append_take {α : Type} (n : Nat) (l rest : List α) :
    (l.take n ++ rest).take n = (l ++ rest).take n := by
  rw [take_append, take_append, take_take, Nat.min_self, length_take]
  congr 2
  omega

theorem foldl_phases {issues : List LayoutIssue} (hle : issues.length ≤ maxLayoutIssues)
    (found : List (List LayoutIssue)) :
    found.foldl (fun issues phase => phase.foldl pushIssue issues) issues =
      (issues ++ found.flatten).take maxLayoutIssues := by
  induction found generalizing issues with
  | nil => rw [flatten_nil, append_nil, take_of_length_le hle]; rfl
  | cons phase found ih =>
    rw [foldl_cons, foldl_pushIssue hle, ih (length_take_le _ _), flatten_cons,
      ← append_assoc, take_append_take]

/-- The issues are the first ones detected, sorted. -/
theorem perm_issues (input : List (LayoutElement F)) (viewport : F × F) :
    (analyze input viewport).issues.Perm ((detected input viewport).take maxLayoutIssues) := by
  unfold analyze detected
  by_cases h : (!finitePositive viewport.1 || !finitePositive viewport.2) = true
  · simp only [if_pos h]
    exact List.Perm.refl _
  · simp only [if_neg h]
    rw [foldl_phases (Nat.zero_le _), nil_append]
    exact perm_insertionSort _ _

theorem mem_detected_of_mem_issues (h : issue ∈ (analyze elements viewport).issues) :
    issue ∈ detected elements viewport :=
  mem_of_mem_take ((perm_issues elements viewport).mem_iff.mp h)

end

end Localview.Layout
