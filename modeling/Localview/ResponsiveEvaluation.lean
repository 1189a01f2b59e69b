import Localview.ContactSheet
import Localview.ArtifactStore

/-! # Evaluating one responsive observation

The geometry detector of a responsive probe.  Each node is held against the viewport and its
parent, the interactive nodes against each other, and the state is a failure as soon as one
check that is not merely suspicious is met.

Coordinates are rationals, so the checks that they are finite are left out; how `f64` is
written to a number of decimals is a parameter.
-/
namespace Localview
open EarlyReturn List

def maxResponsiveObservationNodes : Nat := 256
def maxResponsiveIssues : Nat := 64
def maxCollisionNodes : Nat := 64
def viewportEdgeTolerancePx : ℚ := 1
def parentOverflowTolerancePx : ℚ := 2
def controlCollisionRatio : ℚ := 1 / 4

/-- What the detector decides. -/
inductive ResponsiveDetectorState
  | pass | fail | inconclusive
  deriving DecidableEq

/-- What is wrong with a layout. -/
inductive ResponsiveIssueKind
  | horizontalOverflow
  | clipping
  | unexpectedDisappearance
  | controlCollision
  | dramaticLayoutJump
  | textOrControlOutsideViewport
  | breakpointLocalRegression
  | nearbyWidthInstability
  deriving DecidableEq

/-- `{:?}` -/
def ResponsiveIssueKind.debug : ResponsiveIssueKind → String
  | horizontalOverflow => "HorizontalOverflow"
  | clipping => "Clipping"
  | unexpectedDisappearance => "UnexpectedDisappearance"
  | controlCollision => "ControlCollision"
  | dramaticLayoutJump => "DramaticLayoutJump"
  | textOrControlOutsideViewport => "TextOrControlOutsideViewport"
  | breakpointLocalRegression => "BreakpointLocalRegression"
  | nearbyWidthInstability => "NearbyWidthInstability"

/-- How certain an issue is. -/
inductive ResponsiveIssueClass
  | deterministic | suspected | inconclusive
  deriving DecidableEq

/-- A rectangle in CSS pixels. -/
structure ResponsiveRect where
  (x y width height : ℚ)
  deriving DecidableEq

namespace ResponsiveRect

def right (rect : ResponsiveRect) : ℚ := rect.x + rect.width
def bottom (rect : ResponsiveRect) : ℚ := rect.y + rect.height
def area (rect : ResponsiveRect) : ℚ := rect.width * rect.height
def valid (rect : ResponsiveRect) : Bool := 0 < rect.width && 0 < rect.height

end ResponsiveRect

structure ResponsiveNodeObservation where
  reference : String
  parentReference : Option String
  rect : ResponsiveRect
  (interactive textOrControl : Bool)
  deriving DecidableEq

/-- A page at one width. -/
structure ResponsiveObservation where
  (session route : String)
  viewport : Viewport
  snapshotVersion : Nat
  stateFingerprint : UInt64
  (stateFingerprintComplete complete : Bool)
  nodes : List ResponsiveNodeObservation

/-- Something wrong at one width. -/
structure ResponsiveIssue where
  kind : ResponsiveIssueKind
  (session route : String)
  viewport : Viewport
  refs : List String
  detector : String
  evidence : List String
  confidenceMilli : Nat
  issueClass : ResponsiveIssueClass
  (beforeWidth afterWidth : Option Nat)
  deriving DecidableEq

/-- The verdict on one width. -/
structure ResponsiveProbeEvaluation where
  state : ResponsiveDetectorState
  issues : List ResponsiveIssue
  deriving DecidableEq

/-- The error of `ResponsiveError` that an observation is refused with. -/
inductive ObservationError
  | invalidResponsiveObservation
  deriving DecidableEq

/-! ## Issues -/

def debugWidth : Option Nat → String
  | none => "None"
  | some width => s!"Some({width})"

def issueKey (issue : ResponsiveIssue) : String :=
  let refs := String.intercalate "," (issue.refs.insertionSort (· ≤ ·))
  s!"{issue.kind.debug}|{issue.session}|{issue.route}|{issue.viewport.width}|{refs}|" ++
    s!"{debugWidth issue.beforeWidth}|{debugWidth issue.afterWidth}"

def deduplicateFrom : List ResponsiveIssue → (seen : List String) →
    (out : List ResponsiveIssue) → List ResponsiveIssue
  | [], _, out => out
  | issue :: rest, seen, out =>
    if maxResponsiveIssues ≤ out.length then out
    else if issueKey issue ∈ seen then deduplicateFrom rest seen out
    else deduplicateFrom rest (issueKey issue :: seen) (out ++ [issue])

def deduplicateResponsiveIssues (issues : List ResponsiveIssue) : List ResponsiveIssue :=
  deduplicateFrom issues [] []

/-- The constructor `issue`, without widths. -/
def issue (observation : ResponsiveObservation) (kind : ResponsiveIssueKind)
    (refs : List String) (issueClass : ResponsiveIssueClass) (confidenceMilli : Nat)
    (evidence : List String) : ResponsiveIssue :=
  { kind, session := observation.session, route := observation.route
    viewport := observation.viewport, refs, detector := "responsive_geometry_v1"
    evidence := s!"snapshot_version={observation.snapshotVersion}" ::
      ("state_fingerprint=" ++ String.ofList (hexDigits16 observation.stateFingerprint)) ::
      evidence
    confidenceMilli := min confidenceMilli 1000, issueClass
    beforeWidth := none, afterWidth := none }

/-! ## The checks -/

def overlapArea (a b : ResponsiveRect) : ℚ :=
  let left := max a.x b.x
  let top := max a.y b.y
  let right := min a.right b.right
  let bottom := min a.bottom b.bottom
  max (right - left) 0 * max (bottom - top) 0

def directParentChild (a b : ResponsiveNodeObservation) : Bool :=
  a.parentReference = some b.reference || b.parentReference = some a.reference

def outsideX (observation : ResponsiveObservation) (node : ResponsiveNodeObservation) : Bool :=
  node.rect.x < -viewportEdgeTolerancePx ||
    (observation.viewport.width : ℚ) + viewportEdgeTolerancePx < node.rect.right

def outsideY (observation : ResponsiveObservation) (node : ResponsiveNodeObservation) : Bool :=
  node.rect.y < -viewportEdgeTolerancePx ||
    (observation.viewport.height : ℚ) + viewportEdgeTolerancePx < node.rect.bottom

def exceedsParent (node parent : ResponsiveNodeObservation) : Bool :=
  node.rect.x < parent.rect.x - parentOverflowTolerancePx ||
    node.rect.y < parent.rect.y - parentOverflowTolerancePx ||
    parent.rect.right + parentOverflowTolerancePx < node.rect.right ||
    parent.rect.bottom + parentOverflowTolerancePx < node.rect.bottom

/-- The overlap is a large share of the smaller node. -/
def controlCollision (left right : ResponsiveNodeObservation) : Bool :=
  let overlap := overlapArea left.rect right.rect
  let smaller := min left.rect.area right.rect.area
  0 < smaller && controlCollisionRatio ≤ overlap / smaller

/-! ## The scans -/

/-- What the scans have found so far. -/
structure ResponsiveScan where
  issues : List ResponsiveIssue
  hardFailure : Bool

/-- An issue that fails the probe. -/
def ResponsiveScan.fail (scan : ResponsiveScan) (found : ResponsiveIssue) : ResponsiveScan :=
  { issues := scan.issues ++ [found], hardFailure := true }

def ResponsiveScan.suspect (scan : ResponsiveScan) (found : ResponsiveIssue) : ResponsiveScan :=
  { scan with issues := scan.issues ++ [found] }

section
variable (fixed : Nat → ℚ → String) (observation : ResponsiveObservation)

def scanOverflow (scan : ResponsiveScan) (node : ResponsiveNodeObservation) : ResponsiveScan :=
  if outsideX observation node then
    scan.fail (issue observation .horizontalOverflow [node.reference] .deterministic 1000
      [s!"rect_x={fixed 2 node.rect.x};rect_right={fixed 2 node.rect.right};" ++
        s!"viewport_width={observation.viewport.width}"])
  else scan

def scanOutside (scan : ResponsiveScan) (node : ResponsiveNodeObservation) : ResponsiveScan :=
  if node.textOrControl && (outsideX observation node || outsideY observation node) then
    scan.fail (issue observation .textOrControlOutsideViewport [node.reference] .deterministic
      1000
      [s!"rect=({fixed 2 node.rect.x},{fixed 2 node.rect.y},{fixed 2 node.rect.width}," ++
        s!"{fixed 2 node.rect.height});" ++
        s!"viewport={observation.viewport.width}x{observation.viewport.height}"])
  else scan

/-- The node that `nodes_by_ref` keeps for a reference: the last one. -/
def nodeByRef (reference : String) : Option ResponsiveNodeObservation :=
  (observation.nodes.filter fun node => node.reference = reference).getLast?

def scanClipping (scan : ResponsiveScan) (node : ResponsiveNodeObservation) : ResponsiveScan :=
  match node.parentReference.bind (nodeByRef observation) with
  | none => scan
  | some parent =>
    if exceedsParent node parent then
      scan.suspect (issue observation .clipping [parent.reference, node.reference] .suspected 650
        ["child_geometry_exceeds_parent_geometry", "computed_overflow_style_not_asserted"])
    else scan

def scanNode (scan : ResponsiveScan) (node : ResponsiveNodeObservation) : ResponsiveScan :=
  scanClipping observation
    (scanOutside fixed observation (scanOverflow fixed observation scan node) node) node

def scanPair (left : ResponsiveNodeObservation) (scan : ResponsiveScan)
    (right : ResponsiveNodeObservation) : ResponsiveScan :=
  if directParentChild left right then scan
  else if controlCollision left right then
    scan.fail (issue observation .controlCollision [left.reference, right.reference]
      .deterministic 950
      ["overlap_ratio=" ++ fixed 3 (overlapArea left.rect right.rect /
          min left.rect.area right.rect.area) ++
        s!";threshold={fixed 3 controlCollisionRatio}"])
  else scan

def scanPairs : List ResponsiveNodeObservation → ResponsiveScan → ResponsiveScan
  | [], scan => scan
  | left :: rest, scan => scanPairs rest (rest.foldl (scanPair fixed observation left) scan)

def interactiveNodes : List ResponsiveNodeObservation :=
  observation.nodes.filter (·.interactive)

def scanObservation : ResponsiveScan :=
  scanPairs fixed observation ((interactiveNodes observation).take maxCollisionNodes)
    (observation.nodes.foldl (scanNode fixed observation) { issues := [], hardFailure := false })

def invalidObservation : Bool :=
  observation.session.isEmpty || observation.route.isEmpty ||
    observation.viewport.width = 0 || observation.viewport.height = 0 ||
    maxResponsiveObservationNodes < observation.nodes.length ||
    observation.nodes.any fun node => node.reference.isEmpty || !node.rect.valid

def differentPage (previous : ResponsiveObservation) : Bool :=
  previous.session ≠ observation.session || previous.route ≠ observation.route

def evaluateResponsiveObservation (previous : Option ResponsiveObservation) :
    Except ObservationError ResponsiveProbeEvaluation := do
  rejectIf (invalidObservation observation) .invalidResponsiveObservation
  rejectIf (previous.any (differentPage observation)) .invalidResponsiveObservation
  let scan := scanObservation fixed observation
  return {
    state := if !observation.complete then .inconclusive
      else if scan.hardFailure then .fail else .pass
    issues := deduplicateResponsiveIssues scan.issues }

end

/-! ## What fails a probe -/

section
variable {fixed : Nat → ℚ → String} {observation : ResponsiveObservation}
  {node left right : ResponsiveNodeObservation} {nodes : List ResponsiveNodeObservation}
  {scan : ResponsiveScan}

/-- A node beyond an edge it must not cross. -/
def Misplaced (observation : ResponsiveObservation) (node : ResponsiveNodeObservation) : Prop :=
  outsideX observation node = true ∨ node.textOrControl = true ∧ outsideY observation node = true

/-- Two nodes that are not parent and child and overlap too much. -/
def Collides (left right : ResponsiveNodeObservation) : Prop :=
  directParentChild left right = false ∧ controlCollision left right = true

instance : Decidable (Misplaced observation node) := by unfold Misplaced; infer_instance
instance : Decidable (Collides left right) := by unfold Collides; infer_instance

@[simp] theorem ResponsiveScan.hardFailure_fail (found : ResponsiveIssue) :
    (scan.fail found).hardFailure = true := rfl

@[simp] theorem ResponsiveScan.hardFailure_suspect (found : ResponsiveIssue) :
    (scan.suspect found).hardFailure = scan.hardFailure := rfl

theorem hardFailure_scanClipping :
    (scanClipping observation scan node).hardFailure = scan.hardFailure := by
  unfold scanClipping
  cases node.parentReference.bind (nodeByRef observation) with
  | none => rfl
  | some parent =>
    by_cases h : exceedsParent node parent = true
    · simp [h]
    · simp [h]

theorem hardFailure_scanNode :
    (scanNode fixed observation scan node).hardFailure = true ↔
      scan.hardFailure = true ∨ Misplaced observation node := by
  rw [scanNode, hardFailure_scanClipping, scanOutside, scanOverflow, Misplaced]
  by_cases hx : outsideX observation node = true
  · by_cases ht : node.textOrControl = true <;> simp [hx, ht]
  · by_cases ht : node.textOrControl = true
    · by_cases hy : outsideY observation node = true <;> simp [hx, ht, hy]
    · simp [hx, ht]

theorem hardFailure_foldl_scanNode :
    (nodes.foldl (scanNode fixed observation) scan).hardFailure = true ↔
      scan.hardFailure = true ∨ ∃ node ∈ nodes, Misplaced observation node := by
  induction nodes generalizing scan with
  | nil => simp
  | cons node nodes ih =>
    rw [foldl_cons, ih, hardFailure_scanNode]
    simp [or_assoc]

theorem hardFailure_scanPair :
    (scanPair fixed observation left scan right).hardFailure = true ↔
      scan.hardFailure = true ∨ Collides left right := by
  unfold scanPair Collides
  by_cases hp : directParentChild left right = true
  · simp [hp]
  · by_cases hc : controlCollision left right = true <;> simp [hp, hc]

theorem scanPair_of_not_collides (h : ¬Collides left right) :
    scanPair fixed observation left scan right = scan := by
  unfold scanPair
  by_cases hp : directParentChild left right = true
  · rw [if_pos hp]
  · rw [if_neg hp, if_neg]
    exact fun hc => h ⟨Bool.eq_false_iff.mpr hp, hc⟩

/-- The nested loop finds nothing among nodes that are apart. -/
theorem scanPairs_of_apart (h : nodes.Pairwise fun left right => ¬Collides left right) :
    scanPairs fixed observation nodes scan = scan := by
  induction nodes with
  | nil => rfl
  | cons left rest ih =>
    have hleft : rest.foldl (scanPair fixed observation left) scan = scan := by
      have hfold : ∀ rights : List ResponsiveNodeObservation,
          (∀ right ∈ rights, ¬Collides left right) →
            rights.foldl (scanPair fixed observation left) scan = scan := by
        intro rights hrights
        induction rights with
        | nil => rfl
        | cons right rights ih =>
          rw [forall_mem_cons] at hrights
          rw [foldl_cons, scanPair_of_not_collides hrights.1, ih hrights.2]
      exact hfold rest (pairwise_cons.mp h).1
    rw [scanPairs, hleft]
    exact ih (pairwise_cons.mp h).2

/-- A node that ends where another begins, or before, does not collide with it. -/
theorem not_collides_of_right_le (hle : left.rect.right ≤ right.rect.x) :
    ¬Collides left right := by
  rintro ⟨-, hcollides⟩
  have hwidth : min left.rect.right right.rect.right ≤ max left.rect.x right.rect.x :=
    le_trans (min_le_left _ _) (le_trans hle (le_max_right _ _))
  have harea : overlapArea left.rect right.rect = 0 := by
    simp only [overlapArea]
    rw [max_eq_right (sub_nonpos.mpr hwidth), zero_mul]
  simp only [controlCollision, harea, zero_div, Bool.and_eq_true, decide_eq_true_eq] at hcollides
  revert hcollides
  norm_num [controlCollisionRatio]

theorem hardFailure_foldl_scanPair :
    (nodes.foldl (scanPair fixed observation left) scan).hardFailure = true ↔
      scan.hardFailure = true ∨ ∃ right ∈ nodes, Collides left right := by
  induction nodes generalizing scan with
  | nil => simp
  | cons right nodes ih =>
    rw [foldl_cons, ih, hardFailure_scanPair]
    simp [or_assoc]

/-- The nested loop meets every pair of its nodes once. -/
theorem hardFailure_scanPairs :
    (scanPairs fixed observation nodes scan).hardFailure = true ↔
      scan.hardFailure = true ∨ ¬nodes.Pairwise fun left right => ¬Collides left right := by
  induction nodes generalizing scan with
  | nil => simp [scanPairs]
  | cons left rest ih =>
    rw [scanPairs, ih, hardFailure_foldl_scanPair, pairwise_cons, not_and_or, or_assoc]
    simp

theorem hardFailure_scanObservation :
    (scanObservation fixed observation).hardFailure = true ↔
      (∃ node ∈ observation.nodes, Misplaced observation node) ∨
        ¬((interactiveNodes observation).take maxCollisionNodes).Pairwise
          fun left right => ¬Collides left right := by
  rw [scanObservation, hardFailure_scanPairs, hardFailure_foldl_scanNode]
  simp

theorem valid_of_invalidObservation (h : ¬invalidObservation observation = true)
    (hmem : node ∈ observation.nodes) : node.rect.valid = true := by
  simp only [invalidObservation, Bool.or_eq_true, not_or, any_eq_true, not_exists] at h
  have hnode := h.2 node
  by_contra hinvalid
  exact hnode ⟨hmem, .inr (by simpa using hinvalid)⟩

theorem ResponsiveRect.valid_iff {rect : ResponsiveRect} :
    rect.valid = true ↔ 0 < rect.width ∧ 0 < rect.height := by
  simp [ResponsiveRect.valid]

/-- For nodes with an area the ratio need not be taken. -/
theorem controlCollision_iff (hleft : left.rect.valid = true) (hright : right.rect.valid = true) :
    controlCollision left right = true ↔
      controlCollisionRatio * min left.rect.area right.rect.area ≤
        overlapArea left.rect right.rect := by
  obtain ⟨hlw, hlh⟩ := ResponsiveRect.valid_iff.mp hleft
  obtain ⟨hrw, hrh⟩ := ResponsiveRect.valid_iff.mp hright
  have hpos : 0 < min left.rect.area right.rect.area :=
    lt_min (mul_pos hlw hlh) (mul_pos hrw hrh)
  simp only [controlCollision, Bool.and_eq_true, decide_eq_true_eq, hpos, true_and]
  exact le_div_iff₀ hpos

end

/-! ## When a pass is sound -/

/-- What a pass says about an observation. -/
structure NoViolation (observation : ResponsiveObservation) : Prop where
  horizontal : ∀ node ∈ observation.nodes, -viewportEdgeTolerancePx ≤ node.rect.x ∧
    node.rect.right ≤ observation.viewport.width + viewportEdgeTolerancePx
  visible : ∀ node ∈ observation.nodes, node.textOrControl = true →
    -viewportEdgeTolerancePx ≤ node.rect.y ∧
      node.rect.bottom ≤ observation.viewport.height + viewportEdgeTolerancePx
  apart : (interactiveNodes observation).Pairwise fun left right =>
    directParentChild left right = true ∨ overlapArea left.rect right.rect <
      controlCollisionRatio * min left.rect.area right.rect.area

/-- A collision with an interactive node that the scan of pairs does not reach. -/
def CollidesPastCap (observation : ResponsiveObservation) : Prop :=
  ∃ (before : List ResponsiveNodeObservation) (right : ResponsiveNodeObservation)
    (after : List ResponsiveNodeObservation),
    interactiveNodes observation = before ++ right :: after ∧
      maxCollisionNodes ≤ before.length ∧ ∃ left ∈ before, Collides left right

/-- A violation that the scans reach. -/
def ViolationReached (observation : ResponsiveObservation) : Prop :=
  (∃ node ∈ observation.nodes, Misplaced observation node) ∨
    ¬((interactiveNodes observation).take maxCollisionNodes).Pairwise
      fun left right => ¬Collides left right

section
variable {fixed : Nat → ℚ → String} {previous : Option ResponsiveObservation}
  {observation : ResponsiveObservation} {evaluation : ResponsiveProbeEvaluation}
  {node : ResponsiveNodeObservation}

/-- The pairs of a list are those of its beginning and those with a later second member. -/
theorem pairwise_iff_take {α : Type} {R : α → α → Prop} {l : List α} (n : Nat) :
    l.Pairwise R ↔ (l.take n).Pairwise R ∧ ∀ (before : List α) (b : α) (after : List α),
      l = before ++ b :: after → n ≤ before.length → ∀ a ∈ before, R a b := by
  constructor
  · intro h
    refine ⟨h.sublist (take_sublist n l), ?_⟩
    rintro before b after rfl - a ha
    exact (pairwise_append.mp h).2.2 a ha b mem_cons_self
  · rintro ⟨htake, hlater⟩
    rw [pairwise_iff_getElem]
    intro i j hi hj hij
    by_cases hn : j < n
    · -- both members stand in the beginning
      have hlt : j < (l.take n).length := by
        rw [length_take]
        omega
      have h := pairwise_iff_getElem.mp htake i j (by omega) hlt hij
      rwa [getElem_take, getElem_take] at h
    · have hsplit : l = l.take j ++ l[j] :: l.drop (j + 1) := by
        rw [← drop_eq_getElem_cons hj, take_append_drop]
      refine hlater _ _ _ hsplit (by rw [length_take]; omega) l[i] ?_
      exact mem_take_iff_getElem.mpr ⟨i, by omega, rfl⟩

theorem not_misplaced_iff : ¬Misplaced observation node ↔
    (-viewportEdgeTolerancePx ≤ node.rect.x ∧
      node.rect.right ≤ observation.viewport.width + viewportEdgeTolerancePx) ∧
    (node.textOrControl = true → -viewportEdgeTolerancePx ≤ node.rect.y ∧
      node.rect.bottom ≤ observation.viewport.height + viewportEdgeTolerancePx) := by
  simp only [Misplaced, outsideX, outsideY, Bool.or_eq_true, decide_eq_true_eq, not_or,
    not_lt, not_and]

theorem not_collides_iff {left right : ResponsiveNodeObservation}
    (hleft : left.rect.valid = true) (hright : right.rect.valid = true) :
    ¬Collides left right ↔ directParentChild left right = true ∨
      overlapArea left.rect right.rect <
        controlCollisionRatio * min left.rect.area right.rect.area := by
  rw [Collides, not_and_or, controlCollision_iff hleft hright, not_le, Bool.not_eq_false]

/-- An observation is free of violations if the scans reach none and none is out of reach. -/
theorem noViolation_iff (hvalid : ∀ node ∈ observation.nodes, node.rect.valid = true) :
    NoViolation observation ↔ ¬ViolationReached observation ∧ ¬CollidesPastCap observation := by
  have hinteractive : ∀ node ∈ interactiveNodes observation, node.rect.valid = true :=
    fun node hnode => hvalid node (mem_filter.mp hnode).1
  have hpairs : (interactiveNodes observation).Pairwise (fun left right => ¬Collides left right) ↔
      (interactiveNodes observation).Pairwise fun left right =>
        directParentChild left right = true ∨ overlapArea left.rect right.rect <
          controlCollisionRatio * min left.rect.area right.rect.area :=
    List.Pairwise.iff_of_mem fun hl hr => not_collides_iff (hinteractive _ hl) (hinteractive _ hr)
  have hreach : ¬CollidesPastCap observation ↔
      ∀ (before : List ResponsiveNodeObservation) (right : ResponsiveNodeObservation)
        (after : List ResponsiveNodeObservation),
        interactiveNodes observation = before ++ right :: after →
          maxCollisionNodes ≤ before.length → ∀ left ∈ before, ¬Collides left right := by
    unfold CollidesPastCap
    push Not
    exact Iff.rfl
  rw [hreach, ViolationReached, not_or, not_not, and_assoc,
    ← pairwise_iff_take maxCollisionNodes, hpairs]
  constructor
  · intro h
    refine ⟨?_, h.apart⟩
    rintro ⟨node, hnode, hmis⟩
    exact not_misplaced_iff.mpr ⟨h.horizontal node hnode, h.visible node hnode⟩ hmis
  · rintro ⟨hplaced, hapart⟩
    have hinside (node : ResponsiveNodeObservation) (hnode : node ∈ observation.nodes) :=
      not_misplaced_iff.mp fun hmis => hplaced ⟨node, hnode, hmis⟩
    exact ⟨fun node hnode => (hinside node hnode).1, fun node hnode => (hinside node hnode).2,
      hapart⟩

/-- A complete observation passes exactly if the scans reach no violation. -/
theorem state_eq_pass_iff (hcomplete : observation.complete = true)
    (h : evaluateResponsiveObservation fixed observation previous = .ok evaluation) :
    (∀ node ∈ observation.nodes, node.rect.valid = true) ∧
      (evaluation.state = .pass ↔ ¬ViolationReached observation) := by
  simp only [evaluateResponsiveObservation, rejectIf_bind_eq_ok] at h
  obtain ⟨hinvalid, -, h⟩ := h
  cases h
  refine ⟨fun node hnode => valid_of_invalidObservation hinvalid hnode, ?_⟩
  have hscan : (scanObservation fixed observation).hardFailure = true ↔
      ViolationReached observation := hardFailure_scanObservation
  rw [← hscan]
  by_cases hfail : (scanObservation fixed observation).hardFailure = true <;>
    simp [hcomplete, hfail]

/-- **A pass is sound exactly unless all that is wrong is a collision past the cap.** -/
theorem evaluate_pass_sound_iff (hcomplete : observation.complete = true)
    (h : evaluateResponsiveObservation fixed observation previous = .ok evaluation) :
    (evaluation.state = .pass → NoViolation observation) ↔
      (CollidesPastCap observation → ViolationReached observation) := by
  obtain ⟨hvalid, hpass⟩ := state_eq_pass_iff hcomplete h
  rw [hpass, noViolation_iff hvalid]
  constructor
  · intro hsound hpast
    by_contra hreached
    exact (hsound hreached).2 hpast
  · intro hcond hreached
    exact ⟨hreached, fun hpast => hreached (hcond hpast)⟩

end

/-! ## Controls side by side -/

def rowOfControls (count : Nat) : List ResponsiveNodeObservation :=
  (List.range count).map fun i =>
    { reference := "c", parentReference := none
      rect := { x := 12 * i, y := 0, width := 10, height := 10 }
      interactive := true, textOrControl := true }

theorem rowOfControls_apart (count : Nat) :
    (rowOfControls count).Pairwise fun left right => ¬Collides left right := by
  simp only [rowOfControls, bind_eq_flatMap, pure_def,
    ← map_eq_flatMap, pairwise_map]
  refine pairwise_lt_range.imp ?_
  intro i j hlt
  apply not_collides_of_right_le
  have hle : (i : ℚ) + 1 ≤ j := by exact_mod_cast hlt
  simp only [ResponsiveRect.right]
  linarith

/-- Where no node raises an issue and the controls that are compared are apart, a probe passes. -/
theorem evaluate_eq_passed {fixed : Nat → ℚ → String} {observation : ResponsiveObservation}
    (hvalid : ¬invalidObservation observation = true) (hcomplete : observation.complete = true)
    (hissues : (observation.nodes.foldl (scanNode fixed observation)
      { issues := [], hardFailure := false }).issues = [])
    (hhard : (observation.nodes.foldl (scanNode fixed observation)
      { issues := [], hardFailure := false }).hardFailure = false)
    (hapart : ((interactiveNodes observation).take maxCollisionNodes).Pairwise
      fun left right => ¬Collides left right) :
    evaluateResponsiveObservation fixed observation none = .ok { state := .pass, issues := [] } := by
  have hscan : scanObservation fixed observation = { issues := [], hardFailure := false } := by
    rw [scanObservation, scanPairs_of_apart hapart]
    generalize observation.nodes.foldl (scanNode fixed observation)
      { issues := [], hardFailure := false } = scan at hissues hhard ⊢
    cases scan with
    | mk issues hardFailure =>
      cases hissues
      cases hhard
      rfl
  unfold evaluateResponsiveObservation
  rw [rejectIf_bind_eq_ok, rejectIf_bind_eq_ok, hscan, hcomplete]
  exact ⟨hvalid, Bool.false_ne_true, rfl⟩

/-- More controls than are compared, all of them apart. -/
def roomyObservation : ResponsiveObservation :=
  { session := "s", route := "/", viewport := { width := 800, height := 600 }
    snapshotVersion := 1, stateFingerprint := 0, stateFingerprintComplete := true
    complete := true, nodes := rowOfControls 66 }

theorem roomyObservation_sound :
    evaluateResponsiveObservation (fun _ => toString) roomyObservation none =
        .ok { state := .pass, issues := [] } ∧
      NoViolation roomyObservation := by
  have hrow : interactiveNodes roomyObservation = rowOfControls 66 := by decide +kernel
  have hpass : evaluateResponsiveObservation (fun _ => toString) roomyObservation none =
      .ok { state := .pass, issues := [] } := by
    refine evaluate_eq_passed (by decide +kernel) rfl (by decide +kernel) (by decide +kernel) ?_
    rw [hrow]
    exact (rowOfControls_apart 66).sublist (take_sublist _ _)
  refine ⟨hpass, (evaluate_pass_sound_iff rfl hpass).mpr ?_ rfl⟩
  -- the last two controls are past the cap and collide with none
  rintro ⟨before, right, after, hsplit, -, left, hleft, hcollides⟩
  have hapart := rowOfControls_apart 66
  rw [← hrow, hsplit] at hapart
  exact absurd hcollides ((pairwise_append.mp hapart).2.2 left hleft right mem_cons_self)

def coveredControl : ResponsiveNodeObservation :=
  { reference := "d", parentReference := none
    rect := { x := 0, y := 100, width := 10, height := 10 }
    interactive := true, textOrControl := true }

/-- As many controls as are compared, and two more upon each other below them. -/
def crowdedObservation : ResponsiveObservation :=
  { roomyObservation with nodes := rowOfControls 64 ++ [coveredControl, coveredControl] }

theorem crowdedObservation_passes :
    evaluateResponsiveObservation (fun _ => toString) crowdedObservation none =
        .ok { state := .pass, issues := [] } ∧
      ¬NoViolation crowdedObservation := by
  refine ⟨evaluate_eq_passed (by decide +kernel) rfl (by decide +kernel) (by decide +kernel) ?_,
    fun h => ?_⟩
  · have hfirst : (interactiveNodes crowdedObservation).take maxCollisionNodes =
        rowOfControls 64 := by decide +kernel
    rw [hfirst]
    exact rowOfControls_apart 64
  have hlast : [coveredControl, coveredControl].Sublist (interactiveNodes crowdedObservation) := by
    have hall : interactiveNodes crowdedObservation =
        rowOfControls 64 ++ [coveredControl, coveredControl] := by decide +kernel
    rw [hall]
    exact sublist_append_right _ _
  have hpair := pairwise_pair.mp (h.apart.sublist hlast)
  revert hpair
  decide +kernel

end Localview
