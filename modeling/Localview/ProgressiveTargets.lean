import Localview.SemanticTree
import Localview.VisualImage
import Mathlib.Data.List.Chain

/-! # Progressive capture targets

A capture of an element goes outwards: the element with a margin, the nearest ancestor of its
component, the nearest section, the viewport (`capture/src/lib.rs`).
-/
namespace Localview
open List

/-- How wide a target is. -/
inductive ProgressiveTargetKind
  | element
  | component
  | «section»
  | viewport

/-- What a target was resolved from. -/
inductive ProgressiveTargetProvenance
  | stableElementRef (reference : ElementRef)
  | sourceComponent (component : String) (ownerRef : ElementRef)
  | semanticSection (ownerRef : ElementRef) (boundary : String)
  | viewportFallback

/-- A rectangle to look at. -/
structure ProgressiveResolvedTarget where
  kind : ProgressiveTargetKind
  rect : Rect
  provenance : ProgressiveTargetProvenance
  confidenceMilli : Nat

/-- The targets from narrow to wide. -/
structure ProgressiveTargetPlan where
  reference : ElementRef
  snapshotVersion : Nat
  route : String
  viewport : Nat × Nat
  targets : List ProgressiveResolvedTarget

/-- Why no targets are resolved. -/
inductive ProgressiveTargetError
  | invalidViewport
  | referenceNotFound
  | invalidElementGeometry

/-! ## Geometry -/

def validateAndClip (rect : Rect) (viewport : Nat × Nat) : Option Rect :=
  if viewport.1 = 0 ∨ viewport.2 = 0 ∨ rect.width ≤ 0 ∨ rect.height ≤ 0 then none
  else
    let left := max rect.x 0
    let top := max rect.y 0
    let clippedRight := min (rect.x + rect.width) viewport.1
    let clippedBottom := min (rect.y + rect.height) viewport.2
    if clippedRight ≤ left ∨ clippedBottom ≤ top then none
    else some ⟨left, top, clippedRight - left, clippedBottom - top⟩

def containsRect (container child : Rect) : Bool :=
  decide (container.x ≤ child.x ∧ container.y ≤ child.y ∧
    child.x + child.width ≤ container.x + container.width ∧
    child.y + child.height ≤ container.y + container.height)

def clamp (rect : Rect) (viewport : Nat × Nat) : Rect :=
  let x := min (max rect.x 0) viewport.1
  let y := min (max rect.y 0) viewport.2
  ⟨x, y, max (min rect.width (viewport.1 - x)) 0, max (min rect.height (viewport.2 - y)) 0⟩

/-- The rectangle with a margin. -/
def grown (rect : Rect) (pad : ℚ) : Rect :=
  ⟨rect.x - pad, rect.y - pad, rect.width + pad * 2, rect.height + pad * 2⟩

def expand (rect : Rect) (pad : ℚ) (viewport : Nat × Nat) : Rect := clamp (grown rect pad) viewport

def viewportRect (viewport : Nat × Nat) : Rect := ⟨0, 0, viewport.1, viewport.2⟩

/-! ## The path to an element -/

namespace SemanticNode
variable {R : Type}

mutual

/-- `find_semantic_path`: the nodes pushed, where all are popped again `none`. -/
def findSemanticPath (reference : ElementRef) : SemanticNode R → Option (List (SemanticNode R))
  | ⟨ownReference, role, name, tag, rect, interactive, attributes, source, ownership,
      children⟩ =>
    let node : SemanticNode R := ⟨ownReference, role, name, tag, rect, interactive, attributes,
      source, ownership, children⟩
    if ownReference = reference then some [node]
    else (findAmong reference children).map (node :: ·)

/-- Its loop over the children. -/
def findAmong (reference : ElementRef) :
    List (SemanticNode R) → Option (List (SemanticNode R))
  | [] => none
  | child :: children =>
    match findSemanticPath reference child with
    | some path => some path
    | none => findAmong reference children

end

def Child (parent child : SemanticNode R) : Prop := child ∈ parent.children

/-- A node above another. -/
def ProperAncestor (ancestor node : SemanticNode R) : Prop :=
  Relation.TransGen Child ancestor node

instance : Trans (@ProperAncestor R) (@ProperAncestor R) (@ProperAncestor R) :=
  ⟨Relation.TransGen.trans⟩

/-- The one node of the tree with the reference. -/
structure Names (root : SemanticNode R) (reference : ElementRef) (node : SemanticNode R) :
    Prop where
  mem : node ∈ root.nodes
  reference_eq : node.reference = reference
  unique : ∀ other ∈ root.nodes, other.reference = reference → other = node

end SemanticNode

open SemanticNode

/-! ## Ancestors -/

/-- What an ancestor shows of itself, if that contains the element. -/
def enclosingRect (ancestor : SemanticNode Rect) (element : Rect) (viewport : Nat × Nat) :
    Option Rect :=
  match ancestor.rect.bind (validateAndClip · viewport) with
  | none => none
  | some rect => if containsRect rect element then some rect else none

def ownedAncestor (targetOwner : ComponentOwnership) (element : Rect) (viewport : Nat × Nat)
    (ancestor : SemanticNode Rect) : Option (SemanticNode Rect × Rect × String) :=
  match ancestor.ownership with
  | none => none
  | some ancestorOwner =>
      if ancestorOwner.framework ≠ targetOwner.framework ∨ ancestorOwner.file ≠ targetOwner.file ∨
          ancestorOwner.component ≠ targetOwner.component then none
      else
        (enclosingRect ancestor element viewport).map fun rect =>
          (ancestor, rect, targetOwner.component)

def sourceAncestor (componentName : String) (element : Rect) (viewport : Nat × Nat)
    (ancestor : SemanticNode Rect) : Option (SemanticNode Rect × Rect × String) :=
  match ancestor.source.bind SourceLocation.component with
  | none => none
  | some ancestorComponent =>
      if ancestorComponent ≠ componentName then none
      else
        (enclosingRect ancestor element viewport).map fun rect => (ancestor, rect, componentName)

def resolveComponentAncestor (path : List (SemanticNode Rect)) (element : Rect)
    (viewport : Nat × Nat) : Option (SemanticNode Rect × Rect × String) :=
  match path.getLast? with
  | none => none
  | some target =>
      match target.ownership with
      | some targetOwner =>
          path.dropLast.reverse.findSome? (ownedAncestor targetOwner element viewport)
      | none =>
          match target.source.bind SourceLocation.component with
          | none => none
          | some componentName =>
              path.dropLast.reverse.findSome? (sourceAncestor componentName element viewport)

def semanticSectionBoundary (node : SemanticNode Rect) : Option String :=
  let tag := node.tag.toLower
  if tag ∈ ["section", "main", "article", "nav", "aside", "form"] then some ("tag:" ++ tag)
  else
    match node.role.map String.toLower with
    | none => none
    | some role =>
        if role ∈ ["region", "main", "navigation", "complementary", "form"] then
          some ("role:" ++ role)
        else none

def sectionAncestor (element : Rect) (viewport : Nat × Nat) (ancestor : SemanticNode Rect) :
    Option (SemanticNode Rect × Rect × String) :=
  match semanticSectionBoundary ancestor with
  | none => none
  | some boundary =>
      (enclosingRect ancestor element viewport).map fun rect => (ancestor, rect, boundary)

def resolveSectionAncestor (path : List (SemanticNode Rect)) (element : Rect)
    (viewport : Nat × Nat) : Option (SemanticNode Rect × Rect × String) :=
  path.dropLast.reverse.findSome? (sectionAncestor element viewport)

/-! ## The targets -/

def pushUniqueTarget (targets : List ProgressiveResolvedTarget)
    (target : ProgressiveResolvedTarget) : List ProgressiveResolvedTarget :=
  if targets.any (fun existing => decide (existing.rect = target.rect)) = true then targets
  else targets ++ [target]

def pushFound (targets : List ProgressiveResolvedTarget)
    (found : Option ProgressiveResolvedTarget) : List ProgressiveResolvedTarget :=
  match found with
  | none => targets
  | some target => pushUniqueTarget targets target

def elementTarget (target : SemanticNode Rect) (elementRect : Rect) (viewport : Nat × Nat) :
    ProgressiveResolvedTarget where
  kind := .element
  rect := expand elementRect 120 viewport
  provenance := .stableElementRef target.reference
  confidenceMilli := 1000

def componentTarget (found : SemanticNode Rect × Rect × String) : ProgressiveResolvedTarget where
  kind := .component
  rect := found.2.1
  provenance := .sourceComponent found.2.2 found.1.reference
  confidenceMilli := 950

def sectionTarget (found : SemanticNode Rect × Rect × String) : ProgressiveResolvedTarget where
  kind := .section
  rect := found.2.1
  provenance := .semanticSection found.1.reference found.2.2
  confidenceMilli := 850

def viewportTarget (viewport : Nat × Nat) : ProgressiveResolvedTarget where
  kind := .viewport
  rect := viewportRect viewport
  provenance := .viewportFallback
  confidenceMilli := 1000

def targetsOf (path : List (SemanticNode Rect)) (target : SemanticNode Rect) (elementRect : Rect)
    (viewport : Nat × Nat) : List ProgressiveResolvedTarget :=
  let component := resolveComponentAncestor path elementRect viewport
  let «section» := resolveSectionAncestor path elementRect viewport
  let targets := pushUniqueTarget [] (elementTarget target elementRect viewport)
  let targets := pushFound targets (component.map componentTarget)
  let targets := pushFound targets («section».map sectionTarget)
  targets ++ [viewportTarget viewport]

def resolveProgressiveTargets (snapshot : PageSnapshot Rect) (reference : ElementRef) :
    Except ProgressiveTargetError ProgressiveTargetPlan :=
  let viewport := snapshot.viewport
  if viewport.1 = 0 ∨ viewport.2 = 0 then .error .invalidViewport
  else
    match findSemanticPath reference snapshot.root with
    | none => .error .referenceNotFound
    | some path =>
        match path.getLast? with
        | none => .error .referenceNotFound
        | some target =>
            match target.rect.bind (validateAndClip · viewport) with
            | none => .error .invalidElementGeometry
            | some elementRect =>
                .ok
                  { reference, snapshotVersion := snapshot.version, route := snapshot.route
                    viewport, targets := targetsOf path target elementRect viewport }

/-- The owner a target names, the tree's one node of that reference, is above the element. -/
def OwnedAbove (root element : SemanticNode Rect) (ownerRef : ElementRef) : Prop :=
  ∃ owner, root.Names ownerRef owner ∧ owner.ProperAncestor element

/-- The element with a margin of 120, cut to the viewport as `validate_and_clip` cuts. -/
def paddedElement (element : Rect) (viewport : Nat × Nat) : Rect :=
  let left := max (element.x - 120) 0
  let top := max (element.y - 120) 0
  ⟨left, top, min (element.x + element.width + 120) viewport.1 - left,
    min (element.y + element.height + 120) viewport.2 - top⟩

/-- The margin does not reach over the left and the top edge of the viewport, or else it reaches
the opposite edge too. -/
structure MarginFits (element : Rect) (viewport : Nat × Nat) : Prop where
  across : 120 ≤ element.x ∨ viewport.1 ≤ element.x + element.width + 120
  down : 120 ≤ element.y ∨ viewport.2 ≤ element.y + element.height + 120

/-- What the targets of an element are to be, from the padded element to the viewport. -/
structure SoundTargets (snapshot : PageSnapshot Rect) (element : SemanticNode Rect)
    (elementRect : Rect) (targets : List ProgressiveResolvedTarget) : Prop where
  first : ∃ padded, targets.head? = some padded ∧ padded.kind = .element ∧
    padded.provenance = .stableElementRef element.reference ∧
    padded.rect = paddedElement elementRect snapshot.viewport
  last : targets.getLast? = some (viewportTarget snapshot.viewport)
  inside : ∀ target ∈ targets, target.rect.Within (viewportRect snapshot.viewport)
  contains : ∀ target ∈ targets, elementRect.Within target.rect
  component : ∀ target ∈ targets, target.kind = .component → ∃ name ownerRef,
    target.provenance = .sourceComponent name ownerRef ∧ OwnedAbove snapshot.root element ownerRef
  sections : ∀ target ∈ targets, target.kind = .section → ∃ ownerRef boundary,
    target.provenance = .semanticSection ownerRef boundary ∧
      OwnedAbove snapshot.root element ownerRef
  distinct : targets.dropLast.Pairwise fun a b => a.rect ≠ b.rect

/-! ## Paths -/

section
variable {R : Type} {root node : SemanticNode R} {reference : ElementRef}

/-- A way down from a node to one with the reference. -/
structure LeadsTo (node : SemanticNode R) (reference : ElementRef)
    (path : List (SemanticNode R)) : Prop where
  head : path.head? = some node
  chain : path.IsChain Child
  last : ∃ target, path.getLast? = some target ∧ target.reference = reference
  within : ∀ passed ∈ path, passed ∈ node.nodes

theorem LeadsTo.cons {child : SemanticNode R} {path : List (SemanticNode R)}
    (hchild : child ∈ node.children) (h : LeadsTo child reference path) :
    LeadsTo node reference (node :: path) := by
  obtain ⟨hhead, hchain, ⟨target, hlast, href⟩, hwithin⟩ := h
  cases path with
  | nil => cases hhead
  | cons first rest =>
    obtain rfl := Option.some.inj hhead
    refine ⟨rfl, isChain_cons_cons.mpr ⟨hchild, hchain⟩, ⟨target, ?_, href⟩, ?_⟩
    · rw [getLast?_cons_cons, hlast]
    · intro passed hmem
      rcases mem_cons.mp hmem with rfl | hmem
      · exact mem_nodes_self passed
      · rw [nodes_eq, mem_cons]
        exact .inr (mem_nodesOf.mpr ⟨first, hchild, hwithin passed hmem⟩)

mutual

theorem leadsTo_of_find : ∀ {node : SemanticNode R} {path : List (SemanticNode R)},
    findSemanticPath reference node = some path → LeadsTo node reference path
  | ⟨ownReference, role, name, tag, rect, interactive, attributes, source, ownership,
      children⟩, path, h => by
    rw [findSemanticPath] at h
    split at h
    case isTrue heq =>
      cases h
      refine ⟨rfl, isChain_singleton _, ⟨_, rfl, heq⟩, ?_⟩
      intro passed hmem
      rw [mem_singleton.mp hmem]
      exact mem_nodes_self _
    case isFalse =>
      obtain ⟨tail, htail, rfl⟩ := Option.map_eq_some_iff.mp h
      obtain ⟨child, hchild, hleads⟩ := leadsTo_of_findAmong htail
      exact hleads.cons hchild

theorem leadsTo_of_findAmong :
    ∀ {children : List (SemanticNode R)} {path : List (SemanticNode R)},
      findAmong reference children = some path →
      ∃ child ∈ children, LeadsTo child reference path
  | [], path, h => by
    rw [findAmong] at h
    cases h
  | child :: children, path, h => by
    rw [findAmong] at h
    split at h
    case h_1 found hfound =>
      cases h
      exact ⟨child, mem_cons_self, leadsTo_of_find hfound⟩
    case h_2 =>
      obtain ⟨other, hmem, hleads⟩ := leadsTo_of_findAmong h
      exact ⟨other, mem_cons_of_mem _ hmem, hleads⟩

end

/-- What is passed on the way is above the end. -/
theorem LeadsTo.properAncestor {path : List (SemanticNode R)} {target ancestor : SemanticNode R}
    (h : LeadsTo node reference path) (hlast : path.getLast? = some target)
    (hmem : ancestor ∈ path.dropLast) : ancestor.ProperAncestor target := by
  have hsplit : path = path.dropLast ++ [target] :=
    (dropLast_append_getLast? target hlast).symm
  have htrans : path.IsChain ProperAncestor :=
    h.chain.imp fun _ _ hchild => Relation.TransGen.single hchild
  have hpairwise : path.Pairwise ProperAncestor := htrans.pairwise
  rw [hsplit] at hpairwise
  exact (pairwise_append.mp hpairwise).2.2 ancestor hmem target mem_cons_self

/-- Where references are unique a node of the tree has its name. -/
theorem names_of_mem (hunique : root.UniqueReferences) (hmem : node ∈ root.nodes) :
    root.Names node.reference node :=
  ⟨hmem, rfl, fun _ hother heq => inj_on_of_nodup_map hunique hother hmem heq⟩

end

/-! ## Rectangles -/

section
variable {rect element : Rect} {viewport : Nat × Nat}

/-- A clipped rectangle lies in the viewport. -/
theorem within_of_clip {raw : Rect} (h : validateAndClip raw viewport = some rect) :
    rect.Within (viewportRect viewport) ∧ 0 < rect.width ∧ 0 < rect.height := by
  unfold validateAndClip at h
  split at h
  case isTrue => cases h
  simp only at h
  split at h
  case isTrue => cases h
  case isFalse hwide =>
    cases h
    push Not at hwide
    have hleft : 0 ≤ max raw.x 0 := le_max_right _ _
    have htop : 0 ≤ max raw.y 0 := le_max_right _ _
    have hright : min (raw.x + raw.width) (viewport.1 : ℚ) ≤ viewport.1 := min_le_right _ _
    have hbottom : min (raw.y + raw.height) (viewport.2 : ℚ) ≤ viewport.2 := min_le_right _ _
    refine ⟨⟨?_, ?_, ?_, ?_⟩, ?_, ?_⟩ <;> simp only [viewportRect]
    · exact hleft
    · linarith
    · exact htop
    · linarith
    · linarith
    · linarith

theorem enclosingRect_eq_some {ancestor : SemanticNode Rect}
    (h : enclosingRect ancestor element viewport = some rect) :
    rect.Within (viewportRect viewport) ∧ element.Within rect := by
  unfold enclosingRect at h
  split at h
  case h_1 => cases h
  case h_2 clipped hclipped =>
    obtain ⟨raw, -, hclip⟩ := Option.bind_eq_some_iff.mp hclipped
    split at h
    case isFalse => cases h
    case isTrue hcontains =>
      cases h
      obtain ⟨hx, hy, hright, hbottom⟩ := of_decide_eq_true hcontains
      exact ⟨(within_of_clip hclip).1, ⟨hx, hright, hy, hbottom⟩⟩

/-- The sides of a clamped interval. -/
theorem clamp_side {start size bound : ℚ} (hbound : 0 ≤ bound) :
    0 ≤ min (max start 0) bound ∧
      min (max start 0) bound + max (min size (bound - min (max start 0) bound)) 0 ≤ bound := by
  have hstart : 0 ≤ min (max start 0) bound := le_min (le_max_right _ _) hbound
  have hle : min (max start 0) bound ≤ bound := min_le_right _ _
  refine ⟨hstart, ?_⟩
  rcases max_cases (min size (bound - min (max start 0) bound)) 0 with ⟨heq, -⟩ | ⟨heq, -⟩
  · have hsize := min_le_right size (bound - min (max start 0) bound)
    rw [heq]
    linarith
  · rw [heq]
    linarith

/-- A point of the interval within the bounds is a point of the clamped interval. -/
theorem mem_clamp_side {start size bound point : ℚ} (hstart : start ≤ point)
    (hend : point ≤ start + size) (hzero : 0 ≤ point) (hbound : point ≤ bound) :
    min (max start 0) bound ≤ point ∧
      point ≤ min (max start 0) bound + max (min size (bound - min (max start 0) bound)) 0 := by
  have hlow : min (max start 0) bound ≤ point := (min_le_left _ _).trans (max_le hstart hzero)
  refine ⟨hlow, ?_⟩
  have hmax := le_max_left (min size (bound - min (max start 0) bound)) 0
  rcases min_cases size (bound - min (max start 0) bound) with ⟨heq, -⟩ | ⟨heq, -⟩
  · have hstarts : start ≤ min (max start 0) bound := by
      refine le_min (le_max_left _ _) (hstart.trans hbound)
    rw [heq] at hmax ⊢
    linarith
  · rw [heq] at hmax ⊢
    linarith

theorem within_expand (pad : ℚ) : (expand rect pad viewport).Within (viewportRect viewport) := by
  have hwidth : (0 : ℚ) ≤ viewport.1 := Nat.cast_nonneg _
  have hheight : (0 : ℚ) ≤ viewport.2 := Nat.cast_nonneg _
  have hx := @clamp_side (rect.x - pad) (rect.width + pad * 2) _ hwidth
  have hy := @clamp_side (rect.y - pad) (rect.height + pad * 2) _ hheight
  refine ⟨hx.1, ?_, hy.1, ?_⟩
  · rw [viewportRect, zero_add]
    exact hx.2
  · rw [viewportRect, zero_add]
    exact hy.2

/-- What is grown and in the viewport is shown. -/
theorem has_expand {pad : ℚ} {point : ℚ × ℚ} (h : (grown rect pad).Has point)
    (hview : (viewportRect viewport).Has point) : (expand rect pad viewport).Has point := by
  obtain ⟨hleft, hright, htop, hbottom⟩ := h
  obtain ⟨hleft', hright', htop', hbottom'⟩ := hview
  simp only [viewportRect, zero_add] at hleft' hright' htop' hbottom'
  obtain ⟨hx, hx'⟩ := mem_clamp_side hleft hright hleft' hright'
  obtain ⟨hy, hy'⟩ := mem_clamp_side htop hbottom htop' hbottom'
  exact ⟨hx, hx', hy, hy'⟩

/-- A rectangle in the viewport is in what it is expanded to. -/
theorem within_of_expand {pad : ℚ} (hpad : 0 ≤ pad) (hwidth : 0 < rect.width)
    (hheight : 0 < rect.height) (h : rect.Within (viewportRect viewport)) :
    rect.Within (expand rect pad viewport) := by
  obtain ⟨hleft, hright, htop, hbottom⟩ := h
  simp only [viewportRect, zero_add] at hleft hright htop hbottom
  have hstart : (expand rect pad viewport).Has (rect.x, rect.y) :=
    has_expand ⟨by simp only [grown]; linarith, by simp only [grown]; linarith,
      by simp only [grown]; linarith, by simp only [grown]; linarith⟩
      ⟨hleft, by simp only [viewportRect]; linarith, htop, by simp only [viewportRect]; linarith⟩
  have hend : (expand rect pad viewport).Has (rect.x + rect.width, rect.y + rect.height) :=
    has_expand ⟨by simp only [grown]; linarith, by simp only [grown]; linarith,
      by simp only [grown]; linarith, by simp only [grown]; linarith⟩
      ⟨by simp only [viewportRect]; linarith, by simp only [viewportRect]; linarith,
        by simp only [viewportRect]; linarith, by simp only [viewportRect]; linarith⟩
  exact ⟨hstart.left, hend.right, hstart.top, hend.bottom⟩

/-- `clamp` moves the start of an interval to the edge and keeps the size: the end is cut right
where nothing was to be cut at the start, or all is shown. -/
theorem clamp_padded_side {start size bound : ℚ} (hstart : 0 ≤ start) (hsize : 0 < size)
    (hend : start + size ≤ bound) :
    min (max (start - 120) 0) bound = max (start - 120) 0 ∧
      max (min (size + 120 * 2) (bound - min (max (start - 120) 0) bound)) 0 =
        min (start + size + 120) bound - max (start - 120) 0 ↔
    120 ≤ start ∨ bound ≤ start + size + 120 := by
  rw [min_eq_left (max_le (by linarith) (by linarith))]
  rcases le_or_gt 120 start with hfar | hnear
  · rw [max_eq_left (by linarith : 0 ≤ start - 120)]
    refine iff_of_true ⟨rfl, ?_⟩ (.inl hfar)
    rcases le_total (start + size + 120) bound with hle | hle
    · rw [min_eq_left hle, min_eq_left (by linarith), max_eq_left (by linarith)]
      linarith
    · rw [min_eq_right hle, min_eq_right (by linarith), max_eq_left (by linarith)]
  · rw [max_eq_right (by linarith : start - 120 ≤ 0), sub_zero, sub_zero]
    constructor
    · rintro ⟨-, heq⟩
      by_contra! hnot
      have hlt : start + size + 120 < min (size + 120 * 2) bound :=
        lt_min (by linarith) hnot.2
      rw [min_eq_left hnot.2.le] at heq
      exact absurd (le_max_left _ _) (not_le.mpr (heq ▸ hlt))
    · rintro (hfar | hreach)
      · exact absurd hfar (not_le.mpr hnear)
      · rw [min_eq_right hreach, min_eq_right (by linarith), max_eq_left (by linarith)]
        exact ⟨rfl, rfl⟩

theorem expand_eq_padded_iff (hwidth : 0 < rect.width) (hheight : 0 < rect.height)
    (h : rect.Within (viewportRect viewport)) :
    expand rect 120 viewport = paddedElement rect viewport ↔ MarginFits rect viewport := by
  obtain ⟨hleft, hright, htop, hbottom⟩ := h
  simp only [viewportRect, zero_add] at hleft hright htop hbottom
  have hx := clamp_padded_side hleft hwidth hright
  have hy := clamp_padded_side htop hheight hbottom
  simp only [expand, clamp, grown, paddedElement, Rect.mk.injEq]
  constructor
  · rintro ⟨hstartx, hstarty, hsizex, hsizey⟩
    exact ⟨hx.mp ⟨hstartx, hsizex⟩, hy.mp ⟨hstarty, hsizey⟩⟩
  · rintro ⟨hacross, hdown⟩
    obtain ⟨hstartx, hsizex⟩ := hx.mpr hacross
    obtain ⟨hstarty, hsizey⟩ := hy.mpr hdown
    exact ⟨hstartx, hstarty, hsizex, hsizey⟩

end

/-! ## The targets -/

section
variable {path : List (SemanticNode Rect)} {elementRect : Rect} {viewport : Nat × Nat}
  {found : SemanticNode Rect × Rect × String}

/-- What is found on the way up is an ancestor, and its rectangle contains the element. -/
structure FoundAbove (path : List (SemanticNode Rect)) (elementRect : Rect)
    (viewport : Nat × Nat) (found : SemanticNode Rect × Rect × String) : Prop where
  mem : found.1 ∈ path.dropLast
  inside : found.2.1.Within (viewportRect viewport)
  contains : elementRect.Within found.2.1

/-- A search that answers with the ancestor and what it shows of itself. -/
theorem foundAbove_of_findSome
    {search : SemanticNode Rect → Option (SemanticNode Rect × Rect × String)}
    (hsearch : ∀ ancestor found, search ancestor = some found →
      found.1 = ancestor ∧ enclosingRect ancestor elementRect viewport = some found.2.1)
    (h : path.dropLast.reverse.findSome? search = some found) :
    FoundAbove path elementRect viewport found := by
  obtain ⟨ancestor, hmem, hfound⟩ := exists_of_findSome?_eq_some h
  obtain ⟨rfl, hrect⟩ := hsearch ancestor found hfound
  obtain ⟨hinside, hcontains⟩ := enclosingRect_eq_some hrect
  exact ⟨mem_reverse.mp hmem, hinside, hcontains⟩

/-- The common end of the three searches. -/
theorem of_map_enclosing {ancestor : SemanticNode Rect} {name : String}
    (h : (enclosingRect ancestor elementRect viewport).map (fun rect => (ancestor, rect, name)) =
      some found) :
    found.1 = ancestor ∧ enclosingRect ancestor elementRect viewport = some found.2.1 := by
  obtain ⟨rect, hrect, rfl⟩ := Option.map_eq_some_iff.mp h
  exact ⟨rfl, hrect⟩

theorem resolveComponentAncestor_eq_some
    (h : resolveComponentAncestor path elementRect viewport = some found) :
    FoundAbove path elementRect viewport found := by
  unfold resolveComponentAncestor at h
  split at h
  case h_1 => cases h
  case h_2 target _ =>
    split at h
    case h_1 targetOwner _ =>
      refine foundAbove_of_findSome ?_ h
      intro ancestor found hfound
      unfold ownedAncestor at hfound
      split at hfound
      case h_1 => cases hfound
      case h_2 =>
        split at hfound
        case isTrue => cases hfound
        case isFalse => exact of_map_enclosing hfound
    case h_2 =>
      split at h
      case h_1 => cases h
      case h_2 componentName _ =>
        refine foundAbove_of_findSome ?_ h
        intro ancestor found hfound
        unfold sourceAncestor at hfound
        split at hfound
        case h_1 => cases hfound
        case h_2 =>
          split at hfound
          case isTrue => cases hfound
          case isFalse => exact of_map_enclosing hfound

theorem resolveSectionAncestor_eq_some
    (h : resolveSectionAncestor path elementRect viewport = some found) :
    FoundAbove path elementRect viewport found := by
  refine foundAbove_of_findSome ?_ h
  intro ancestor found hfound
  unfold sectionAncestor at hfound
  split at hfound
  case h_1 => cases hfound
  case h_2 => exact of_map_enclosing hfound

/-- A push keeps the rectangles apart and the first target in front. -/
theorem pushFound_spec {targets : List ProgressiveResolvedTarget}
    {pushed : Option ProgressiveResolvedTarget}
    (hdistinct : targets.Pairwise fun a b => a.rect ≠ b.rect) :
    (pushFound targets pushed).Pairwise (fun a b => a.rect ≠ b.rect) ∧
      (∀ target ∈ pushFound targets pushed, target ∈ targets ∨ pushed = some target) ∧
      targets <+: pushFound targets pushed := by
  cases pushed with
  | none => exact ⟨hdistinct, fun target hmem => .inl hmem, prefix_refl _⟩
  | some target =>
    rw [pushFound, pushUniqueTarget]
    split
    case isTrue => exact ⟨hdistinct, fun _ hmem => .inl hmem, prefix_refl _⟩
    case isFalse hnew =>
      refine ⟨?_, ?_, prefix_append _ _⟩
      · refine pairwise_append.mpr ⟨hdistinct, pairwise_singleton _ _, ?_⟩
        intro a ha b hb heq
        rw [mem_singleton.mp hb] at heq
        exact hnew (any_eq_true.mpr ⟨a, ha, decide_eq_true heq⟩)
      · intro other hmem
        rcases mem_append.mp hmem with hmem | hmem
        · exact .inl hmem
        · exact .inr (congrArg some (mem_singleton.mp hmem).symm)

/-- The targets before the last. -/
theorem targetsOf_spec (target : SemanticNode Rect) :
    ∃ front, targetsOf path target elementRect viewport = front ++ [viewportTarget viewport] ∧
      front.head? = some (elementTarget target elementRect viewport) ∧
      front.Pairwise (fun a b => a.rect ≠ b.rect) ∧
      ∀ resolved ∈ front, resolved = elementTarget target elementRect viewport ∨
        (∃ found, FoundAbove path elementRect viewport found ∧
          (resolved = componentTarget found ∨ resolved = sectionTarget found)) := by
  obtain ⟨hdistinct, hmem, hfirst⟩ := @pushFound_spec [elementTarget target elementRect viewport]
    ((resolveComponentAncestor path elementRect viewport).map componentTarget)
    (pairwise_singleton _ _)
  obtain ⟨hdistinct', hmem', hfirst'⟩ := @pushFound_spec _
    ((resolveSectionAncestor path elementRect viewport).map sectionTarget) hdistinct
  refine ⟨_, rfl, ?_, hdistinct', ?_⟩
  · obtain ⟨rest, hrest⟩ := hfirst.trans hfirst'
    exact congrArg List.head? hrest.symm
  · intro resolved hresolved
    rcases hmem' resolved hresolved with hresolved | hsection
    · rcases hmem resolved hresolved with helement | hcomponent
      · exact .inl (mem_singleton.mp helement)
      · obtain ⟨found, hfound, rfl⟩ := Option.map_eq_some_iff.mp hcomponent
        exact .inr ⟨found, resolveComponentAncestor_eq_some hfound, .inl rfl⟩
    · obtain ⟨found, hfound, rfl⟩ := Option.map_eq_some_iff.mp hsection
      exact .inr ⟨found, resolveSectionAncestor_eq_some hfound, .inr rfl⟩

end

/-- **Progressive targets.**  A resolved plan starts with the padded element exactly where the
margin fits; it ends with the viewport, each target lies in the viewport and contains what it
shows of the element, a component or a section is above the element in the tree, and no
rectangle before the last comes twice. -/
theorem resolveProgressiveTargets_sound {snapshot : PageSnapshot Rect} {reference : ElementRef}
    {plan : ProgressiveTargetPlan} (hunique : snapshot.root.UniqueReferences)
    (h : resolveProgressiveTargets snapshot reference = .ok plan) :
    ∃ element raw elementRect, snapshot.root.Names reference element ∧
      element.rect = some raw ∧ validateAndClip raw snapshot.viewport = some elementRect ∧
      (SoundTargets snapshot element elementRect plan.targets ↔
        MarginFits elementRect snapshot.viewport) := by
  unfold resolveProgressiveTargets at h
  simp only at h
  split at h
  case isTrue => cases h
  split at h
  case h_1 => cases h
  case h_2 path hpath =>
  split at h
  case h_1 => cases h
  case h_2 element hlast =>
  split at h
  case h_1 => cases h
  case h_2 elementRect hclipped =>
  cases h
  obtain ⟨raw, hraw, hclip⟩ := Option.bind_eq_some_iff.mp hclipped
  have hleads := leadsTo_of_find hpath
  have hreference : element.reference = reference := by
    obtain ⟨target, hlast', href⟩ := hleads.last
    rw [hlast] at hlast'
    rw [Option.some.inj hlast', href]
  have hmem : element ∈ snapshot.root.nodes := hleads.within _ (mem_of_getLast? hlast)
  have hnames := names_of_mem hunique hmem
  rw [hreference] at hnames
  obtain ⟨hwithin, hwidth, hheight⟩ := within_of_clip hclip
  obtain ⟨front, htargets, hhead, hdistinct, hfront⟩ :=
    @targetsOf_spec path elementRect snapshot.viewport element
  have hcases : ∀ target ∈ targetsOf path element elementRect snapshot.viewport,
      target = viewportTarget snapshot.viewport ∨
        target = elementTarget element elementRect snapshot.viewport ∨
        ∃ found, FoundAbove path elementRect snapshot.viewport found ∧
          (target = componentTarget found ∨ target = sectionTarget found) := by
    intro target htarget
    rw [htargets] at htarget
    rcases mem_append.mp htarget with htarget | htarget
    · exact .inr (hfront target htarget)
    · exact .inl (mem_singleton.mp htarget)
  have habove : ∀ found, FoundAbove path elementRect snapshot.viewport found →
      OwnedAbove snapshot.root element found.1.reference := by
    intro found hfound
    refine ⟨found.1, names_of_mem hunique (hleads.within _ ((dropLast_subset _) hfound.mem)),
      hleads.properAncestor hlast hfound.mem⟩
  have hstarts : (targetsOf path element elementRect snapshot.viewport).head? =
      some (elementTarget element elementRect snapshot.viewport) := by
    rw [htargets, head?_append, hhead]
    rfl
  refine ⟨element, raw, elementRect, hnames, hraw, hclip, ?_⟩
  rw [← expand_eq_padded_iff hwidth hheight hwithin]
  refine ⟨fun hsound => ?_, fun hpadded => ?_⟩
  · obtain ⟨padded, hpadded, -, -, hrect⟩ := hsound.first
    rw [← hrect, ← Option.some.inj (hstarts.symm.trans hpadded)]
    rfl
  constructor
  case first => exact ⟨_, hstarts, rfl, rfl, hpadded⟩
  case last => rw [htargets, getLast?_concat]
  case inside =>
    intro target htarget
    rcases hcases target htarget with rfl | rfl | ⟨found, hfound, rfl | rfl⟩
    · exact ⟨le_refl _, le_refl _, le_refl _, le_refl _⟩
    · exact within_expand 120
    · exact hfound.inside
    · exact hfound.inside
  case contains =>
    intro target htarget
    rcases hcases target htarget with rfl | rfl | ⟨found, hfound, rfl | rfl⟩
    · exact hwithin
    · exact within_of_expand (by norm_num) hwidth hheight hwithin
    · exact hfound.contains
    · exact hfound.contains
  case component =>
    intro target htarget hkind
    rcases hcases target htarget with rfl | rfl | ⟨found, hfound, rfl | rfl⟩
    · cases hkind
    · cases hkind
    · exact ⟨_, _, rfl, habove found hfound⟩
    · cases hkind
  case sections =>
    intro target htarget hkind
    rcases hcases target htarget with rfl | rfl | ⟨found, hfound, rfl | rfl⟩
    · cases hkind
    · cases hkind
    · cases hkind
    · exact ⟨_, _, rfl, habove found hfound⟩
  case distinct =>
    rw [htargets, dropLast_concat]
    exact hdistinct

/-! ## A button in a card -/

def shown (reference : ElementRef) (tag : String) (rect : Rect) (component : Option String)
    (children : List (SemanticNode Rect)) : SemanticNode Rect where
  reference := reference
  role := none
  name := none
  tag := tag
  rect := some rect
  interactive := false
  attributes := OrderedMap.empty
  source := component.map fun name => ⟨"src/SettingsCard.tsx", 1, none, some name⟩
  ownership := none
  children := children

def saveButton : SemanticNode Rect :=
  shown "@save" "button" ⟨300, 300, 100, 40⟩ (some "SettingsCard") []

def settingsPage : PageSnapshot Rect where
  version := 7
  route := "/settings"
  viewport := (1000, 800)
  root := shown "@root" "MAIN" ⟨0, 0, 1000, 800⟩ none
    [shown "@section" "section" ⟨200, 180, 650, 420⟩ none
      [shown "@card" "div" ⟨250, 220, 500, 300⟩ (some "SettingsCard") [saveButton]]]
  consoleErrors := []
  failedRequests := []

theorem resolveProgressiveTargets_sound_save :
    ∃ plan, resolveProgressiveTargets settingsPage "@save" = .ok plan ∧ plan.targets.length = 4 ∧
      ∃ element raw elementRect, settingsPage.root.Names "@save" element ∧
        element.rect = some raw ∧ validateAndClip raw settingsPage.viewport = some elementRect ∧
        SoundTargets settingsPage element elementRect plan.targets := by
  have hlength : ((resolveProgressiveTargets settingsPage "@save").toOption.map fun plan =>
      plan.targets.length) = some 4 := by decide +kernel
  cases hplan : resolveProgressiveTargets settingsPage "@save" with
  | error error =>
    rw [hplan] at hlength
    cases hlength
  | ok plan =>
    rw [hplan] at hlength
    have hunique : settingsPage.root.UniqueReferences := by
      unfold UniqueReferences
      decide +kernel
    obtain ⟨element, raw, elementRect, hnames, hraw, hclip, hsound⟩ :=
      resolveProgressiveTargets_sound hunique hplan
    obtain rfl := hnames.unique saveButton (mem_of_getLast? rfl) rfl
    obtain rfl := Option.some.inj hraw
    have hwhole : validateAndClip ⟨300, 300, 100, 40⟩ settingsPage.viewport =
        some ⟨300, 300, 100, 40⟩ := by decide +kernel
    obtain rfl := Option.some.inj (hwhole.symm.trans hclip)
    exact ⟨plan, rfl, Option.some.inj hlength, _, _, _, hnames, hraw, hclip,
      hsound.mpr ⟨.inl (by decide +kernel), .inl (by decide +kernel)⟩⟩

def menuButton : SemanticNode Rect := shown "@menu" "button" ⟨0, 300, 100, 40⟩ none []

/-- A button at the left edge of the viewport. -/
def edgePage : PageSnapshot Rect :=
  { settingsPage with root := shown "@root" "MAIN" ⟨0, 0, 1000, 800⟩ none [menuButton] }

/-- The margin of a button at the edge is moved into the viewport and not cut: 340 wide in place
of 220. -/
theorem edge_margin_not_cut :
    ¬ ∀ (snapshot : PageSnapshot Rect) (reference : ElementRef) (plan : ProgressiveTargetPlan),
      snapshot.root.UniqueReferences → resolveProgressiveTargets snapshot reference = .ok plan →
      ∃ element raw elementRect, snapshot.root.Names reference element ∧
        element.rect = some raw ∧ validateAndClip raw snapshot.viewport = some elementRect ∧
        SoundTargets snapshot element elementRect plan.targets := by
  intro h
  have hrect : ((resolveProgressiveTargets edgePage "@menu").toOption.bind fun plan =>
      plan.targets.head?.map (·.rect)) = some ⟨0, 180, 340, 280⟩ := by decide +kernel
  cases hplan : resolveProgressiveTargets edgePage "@menu" with
  | error error =>
    rw [hplan] at hrect
    cases hrect
  | ok plan =>
    obtain ⟨element, raw, elementRect, hnames, hraw, hclip, hsound⟩ :=
      h edgePage "@menu" plan (by unfold UniqueReferences; decide +kernel) hplan
    obtain rfl := hnames.unique menuButton (mem_of_getLast? rfl) rfl
    cases hraw
    have hwhole : validateAndClip ⟨0, 300, 100, 40⟩ edgePage.viewport =
        some ⟨0, 300, 100, 40⟩ := by decide +kernel
    obtain rfl := Option.some.inj (hwhole.symm.trans hclip)
    obtain ⟨padded, hpadded, -, -, heq⟩ := hsound.first
    have hgiven : plan.targets.head?.map (·.rect) = some ⟨0, 180, 340, 280⟩ := by
      rw [hplan] at hrect
      exact hrect
    rw [hpadded, Option.map_some, heq] at hgiven
    exact absurd hgiven (by decide +kernel)

end Localview
