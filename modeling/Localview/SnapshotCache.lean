import Localview.OrderedSet
import Localview.SemanticSnapshot
import Localview.VisualImage

/-! # The semantic snapshot cache

What `crates/native-provider` lets a provider publish.  A capture counts what it reads
with a `SnapshotBudgetGuard` and hands its draft to the cache of its lineage, which
checks it and makes it the current revision.

`NativeSemanticSnapshotRevision.Coherent` is what is true of every revision published,
whatever the drafts were.
-/
namespace Localview.NativeProvider
open EarlyReturn StateRun List

/-! ## The budget of a capture -/

structure SnapshotBudget where
  (maxNodes maxDepth maxProperties : Nat)

/-- What a snapshot ran out of. -/
inductive SnapshotBudgetLimit
  | nodes
  | depth
  | properties

/-- The place of a limit in the derived order. -/
def SnapshotBudgetLimit.rank : SnapshotBudgetLimit → Nat
  | .nodes => 0
  | .depth => 1
  | .properties => 2

instance : LinearOrder SnapshotBudgetLimit :=
  LinearOrder.lift' SnapshotBudgetLimit.rank fun a b h => by
    cases a <;> cases b <;> first | rfl | cases h

structure SnapshotResourceUsage where
  (nodesObserved propertiesRead maxDepthObserved : Nat)
  exhausted : List SnapshotBudgetLimit
  incomplete : Bool

/-- What is read so far. -/
structure SnapshotBudgetGuard where
  budget : SnapshotBudget
  (nodesObserved propertiesRead maxDepthObserved : Nat)
  exhausted : OrderedSet SnapshotBudgetLimit

/-- `usize::saturating_add` -/
def saturatingSum (a b : Nat) : Nat := min (a + b) usizeMax

namespace SnapshotBudgetGuard

def new (budget : SnapshotBudget) : SnapshotBudgetGuard :=
  { budget, nodesObserved := 0, propertiesRead := 0, maxDepthObserved := 0
    exhausted := OrderedSet.empty }

variable (guard : SnapshotBudgetGuard)

/-- The limits that a node of the depth and with so many properties would violate. -/
def violated (depth propertiesToRead : Nat) : List SnapshotBudgetLimit :=
  (if guard.budget.maxNodes ≤ guard.nodesObserved then [SnapshotBudgetLimit.nodes] else []) ++
    (if guard.budget.maxDepth < depth then [SnapshotBudgetLimit.depth] else []) ++
      (if guard.budget.maxProperties < saturatingSum guard.propertiesRead propertiesToRead then
        [SnapshotBudgetLimit.properties] else [])

def admitNode (depth propertiesToRead : Nat) : Bool × SnapshotBudgetGuard :=
  let violated := guard.violated depth propertiesToRead
  if violated ≠ [] then (false, { guard with exhausted := guard.exhausted.extend violated })
  else (true,
    { guard with
      nodesObserved := saturatingSum guard.nodesObserved 1
      propertiesRead := saturatingSum guard.propertiesRead propertiesToRead
      maxDepthObserved := max guard.maxDepthObserved depth })

def finish : SnapshotResourceUsage :=
  let exhausted := guard.exhausted.toList
  { nodesObserved := guard.nodesObserved, propertiesRead := guard.propertiesRead
    maxDepthObserved := guard.maxDepthObserved, exhausted, incomplete := !exhausted.isEmpty }

/-- A capture asks for its nodes in turn, each by its depth and the number of its
properties; how many were admitted. -/
def admitAll (guard : SnapshotBudgetGuard) : List (Nat × Nat) → Nat × SnapshotBudgetGuard
  | [] => (0, guard)
  | (depth, propertiesToRead) :: asked =>
      let admission := guard.admitNode depth propertiesToRead
      let rest := admitAll admission.2 asked
      (rest.1 + admission.1.toNat, rest.2)

end SnapshotBudgetGuard

/-! ## Drafts and revisions -/

/-- A node with its place in the tree. -/
structure NativeSemanticNodeObservation extends Localview.NativeSemanticNodeObservation where
  parentIndex : Option Nat
  depth : Nat
  (role name controlType automationId className : Option String)
  (isEnabled isOffscreen : Option Bool)

/-- A snapshot not published yet. -/
structure NativeSemanticSnapshotDraft where
  providerIncarnationRef : ProviderIncarnationRef
  targetIncarnationRef : TargetIncarnationRef
  (snapshotCutRef surfaceScope cacheProfileRevision permissionVisibilityRevision : String)
  captureSequence : Nat
  nodes : List NativeSemanticNodeObservation
  resourceUsage : SnapshotResourceUsage
  completeness : ReconciliationCompleteness
  incompletenessDebt : List String

/-- Why a snapshot is not published. -/
inductive SnapshotPublishError
  | providerIncarnationMismatch
  | targetIncarnationMismatch
  | establishedSnapshotHasIncompleteness
  | resourceUsageInconsistent
  | missingSnapshotCut
  | missingSurfaceScope
  | missingCacheProfileRevision
  | missingPermissionVisibilityRevision
  | nonMonotonicCaptureSequence
  | nodeProviderIncarnationMismatch
  | nodeTargetIncarnationMismatch
  | mixedObservationCut
  | invalidNodeParent
  deriving DecidableEq

structure NativeSemanticSnapshotRevision where
  cacheRevisionRef : String
  providerIncarnationRef : ProviderIncarnationRef
  targetIncarnationRef : TargetIncarnationRef
  (snapshotCutRef surfaceScope cacheProfileRevision permissionVisibilityRevision : String)
  captureSequence : Nat
  nodes : List NativeSemanticNodeObservation
  resourceUsage : SnapshotResourceUsage
  completeness : ReconciliationCompleteness
  observedDigest : String
  incompletenessDebt : List String

structure SemanticSnapshotCache where
  providerIncarnationRef : ProviderIncarnationRef
  targetIncarnationRef : TargetIncarnationRef
  current : Option NativeSemanticSnapshotRevision

namespace SemanticSnapshotCache

def forLineage (providerIncarnationRef : ProviderIncarnationRef)
    (targetIncarnationRef : TargetIncarnationRef) : SemanticSnapshotCache :=
  { providerIncarnationRef, targetIncarnationRef, current := none }

variable (cache : SemanticSnapshotCache)

/-- The checks of a node, the one at `index`. -/
def validateNode (draft : NativeSemanticSnapshotDraft) (index : Nat)
    (node : NativeSemanticNodeObservation) : Except SnapshotPublishError Unit := do
  rejectIf (node.elementRef.providerIncarnationRef ≠ draft.providerIncarnationRef)
    .nodeProviderIncarnationMismatch
  rejectIf (node.elementRef.targetIncarnationRef ≠ draft.targetIncarnationRef)
    .nodeTargetIncarnationMismatch
  rejectIf (node.elementRef.acquisitionCutRef ≠ draft.snapshotCutRef) .mixedObservationCut
  rejectIf (node.parentIndex.any (fun parent => decide (index ≤ parent)) = true) .invalidNodeParent

/-- The loop over the nodes, from `index` on. -/
def validateNodes (draft : NativeSemanticSnapshotDraft) :
    Nat → List NativeSemanticNodeObservation → Except SnapshotPublishError Unit
  | _, [] => .ok ()
  | index, node :: nodes => do
      validateNode draft index node
      validateNodes draft (index + 1) nodes

def validate (draft : NativeSemanticSnapshotDraft) : Except SnapshotPublishError Unit := do
  rejectIf (draft.providerIncarnationRef ≠ cache.providerIncarnationRef)
    .providerIncarnationMismatch
  rejectIf (draft.targetIncarnationRef ≠ cache.targetIncarnationRef) .targetIncarnationMismatch
  rejectIf (trimIsEmpty draft.snapshotCutRef = true) .missingSnapshotCut
  rejectIf (trimIsEmpty draft.surfaceScope = true) .missingSurfaceScope
  rejectIf (trimIsEmpty draft.cacheProfileRevision = true) .missingCacheProfileRevision
  rejectIf (trimIsEmpty draft.permissionVisibilityRevision = true)
    .missingPermissionVisibilityRevision
  rejectIf (cache.current.any (fun current =>
    decide (draft.captureSequence ≤ current.captureSequence)) = true) .nonMonotonicCaptureSequence
  let usageIncomplete := draft.resourceUsage.incomplete || !draft.resourceUsage.exhausted.isEmpty ||
    !draft.incompletenessDebt.isEmpty
  rejectIf (draft.completeness = .established ∧ usageIncomplete = true)
    .establishedSnapshotHasIncompleteness
  rejectIf (draft.resourceUsage.incomplete ≠ !draft.resourceUsage.exhausted.isEmpty)
    .resourceUsageInconsistent
  rejectIf (draft.resourceUsage.nodesObserved ≠ draft.nodes.length) .resourceUsageInconsistent
  validateNodes draft 0 draft.nodes

/-- The revision of a draft; `objectHash` is the digest of a serialized object. -/
def revisionOf (objectHash : NativeSemanticSnapshotDraft → String)
    (draft : NativeSemanticSnapshotDraft) : NativeSemanticSnapshotRevision :=
  { cacheRevisionRef := "native-semantic-cache:" ++ toString draft.captureSequence ++ ":" ++
      objectHash draft
    providerIncarnationRef := draft.providerIncarnationRef
    targetIncarnationRef := draft.targetIncarnationRef
    snapshotCutRef := draft.snapshotCutRef
    surfaceScope := draft.surfaceScope
    cacheProfileRevision := draft.cacheProfileRevision
    permissionVisibilityRevision := draft.permissionVisibilityRevision
    captureSequence := draft.captureSequence
    nodes := draft.nodes
    resourceUsage := draft.resourceUsage
    completeness := draft.completeness
    observedDigest := objectHash draft
    incompletenessDebt := draft.incompletenessDebt }

def publish (objectHash : NativeSemanticSnapshotDraft → String)
    (draft : NativeSemanticSnapshotDraft) :
    Except SnapshotPublishError NativeSemanticSnapshotRevision × SemanticSnapshotCache :=
  match cache.validate draft with
  | .error e => (.error e, cache)
  | .ok () =>
      let revision := revisionOf objectHash draft
      (.ok revision, { cache with current := some revision })

end SemanticSnapshotCache

/-! ## The guard keeps its budget -/

namespace SnapshotBudgetGuard
variable {guard : SnapshotBudgetGuard} {depth propertiesToRead : Nat} {asked : List (Nat × Nat)}

/-- What has been counted is within the budget. -/
structure Within (guard : SnapshotBudgetGuard) : Prop where
  nodes : guard.nodesObserved ≤ guard.budget.maxNodes
  depth : guard.maxDepthObserved ≤ guard.budget.maxDepth
  properties : guard.propertiesRead ≤ guard.budget.maxProperties

theorem within_new (budget : SnapshotBudget) : (new budget).Within :=
  ⟨Nat.zero_le _, Nat.zero_le _, Nat.zero_le _⟩

theorem violated_eq_nil : guard.violated depth propertiesToRead = [] ↔
    guard.nodesObserved < guard.budget.maxNodes ∧ depth ≤ guard.budget.maxDepth ∧
      saturatingSum guard.propertiesRead propertiesToRead ≤ guard.budget.maxProperties := by
  unfold violated
  simp only [append_eq_nil_iff, ite_eq_right_iff, cons_ne_nil, imp_false, not_le, not_lt,
    and_assoc]

/-- A node is counted where no limit is violated, and nothing of it otherwise. -/
theorem admitNode_cases :
    (guard.admitNode depth propertiesToRead = (false,
        { guard with
          exhausted := guard.exhausted.extend (guard.violated depth propertiesToRead) })) ∨
      guard.violated depth propertiesToRead = [] ∧ guard.admitNode depth propertiesToRead = (true,
        { guard with
          nodesObserved := saturatingSum guard.nodesObserved 1
          propertiesRead := saturatingSum guard.propertiesRead propertiesToRead
          maxDepthObserved := max guard.maxDepthObserved depth }) := by
  unfold admitNode
  by_cases h : guard.violated depth propertiesToRead = []
  · exact .inr ⟨h, if_neg (not_not.mpr h)⟩
  · exact .inl (if_pos h)

theorem admitNode_budget : (guard.admitNode depth propertiesToRead).2.budget = guard.budget := by
  obtain h | ⟨-, h⟩ := @admitNode_cases guard depth propertiesToRead <;> rw [h]

theorem Within.admitNode (h : guard.Within) : (guard.admitNode depth propertiesToRead).2.Within := by
  obtain heq | ⟨hnone, heq⟩ := @admitNode_cases guard depth propertiesToRead
  · rw [heq]
    exact ⟨h.nodes, h.depth, h.properties⟩
  · rw [heq]
    obtain ⟨hnodes, hdepth, hproperties⟩ := violated_eq_nil.mp hnone
    refine ⟨?_, max_le h.depth hdepth, hproperties⟩
    show min (guard.nodesObserved + 1) usizeMax ≤ guard.budget.maxNodes
    omega

theorem Within.admitAll (h : guard.Within) : (guard.admitAll asked).2.Within := by
  induction asked generalizing guard with
  | nil => exact h
  | cons node asked ih => exact ih h.admitNode

theorem admitAll_budget : (guard.admitAll asked).2.budget = guard.budget := by
  induction asked generalizing guard with
  | nil => rfl
  | cons node asked ih => exact ih.trans admitNode_budget

end SnapshotBudgetGuard

/-- Not more than the budget. -/
structure SnapshotResourceUsage.Within (usage : SnapshotResourceUsage) (budget : SnapshotBudget) :
    Prop where
  nodes : usage.nodesObserved ≤ budget.maxNodes
  depth : usage.maxDepthObserved ≤ budget.maxDepth
  properties : usage.propertiesRead ≤ budget.maxProperties

open SnapshotBudgetGuard

/-- A capture's usage is within its budget, whatever nodes it asks for. -/
theorem usage_within (budget : SnapshotBudget) (asked : List (Nat × Nat)) :
    ((new budget).admitAll asked).2.finish.Within budget := by
  have h : ((new budget).admitAll asked).2.Within :=
    (within_new budget).admitAll
  have hbudget : ((new budget).admitAll asked).2.budget = budget :=
    admitAll_budget
  obtain ⟨hnodes, hdepth, hproperties⟩ := h
  rw [hbudget] at hnodes hdepth hproperties
  exact ⟨hnodes, hdepth, hproperties⟩

/-- A revision of a lineage that agrees with itself. -/
structure NativeSemanticSnapshotRevision.Coherent (providerIncarnationRef : ProviderIncarnationRef)
    (targetIncarnationRef : TargetIncarnationRef) (revision : NativeSemanticSnapshotRevision) :
    Prop where
  provider : revision.providerIncarnationRef = providerIncarnationRef
  target : revision.targetIncarnationRef = targetIncarnationRef
  nodeProviders : ∀ node ∈ revision.nodes,
    node.elementRef.providerIncarnationRef = providerIncarnationRef
  nodeTargets : ∀ node ∈ revision.nodes, node.elementRef.targetIncarnationRef = targetIncarnationRef
  nodeCuts : ∀ node ∈ revision.nodes,
    node.elementRef.acquisitionCutRef = revision.snapshotCutRef
  parents : ∀ (index : Nat) (node : NativeSemanticNodeObservation),
    revision.nodes[index]? = some node → ∀ parent, node.parentIndex = some parent → parent < index
  counted : revision.resourceUsage.nodesObserved = revision.nodes.length
  exhaustion : revision.resourceUsage.incomplete = !revision.resourceUsage.exhausted.isEmpty
  established : revision.completeness = .established →
    revision.resourceUsage.exhausted = [] ∧ revision.incompletenessDebt = []

namespace SemanticSnapshotCache
variable {cache cache' : SemanticSnapshotCache} {draft : NativeSemanticSnapshotDraft}
  {objectHash : NativeSemanticSnapshotDraft → String}
  {revision : NativeSemanticSnapshotRevision}

theorem validateNode_ok {index : Nat} {node : NativeSemanticNodeObservation} :
    validateNode draft index node = .ok () ↔
      node.elementRef.providerIncarnationRef = draft.providerIncarnationRef ∧
        node.elementRef.targetIncarnationRef = draft.targetIncarnationRef ∧
          node.elementRef.acquisitionCutRef = draft.snapshotCutRef ∧
            ∀ parent, node.parentIndex = some parent → parent < index := by
  unfold validateNode
  simp only [rejectIf_bind_eq_ok, rejectIf_eq_ok, ne_eq, not_not, Option.any_eq_true,
    decide_eq_true_eq, not_exists, not_and, not_le]

/-- The loop accepts the nodes that each pass, in their places. -/
theorem validateNodes_ok {index : Nat} {nodes : List NativeSemanticNodeObservation} :
    validateNodes draft index nodes = .ok () ↔
      ∀ (offset : Nat) (node : NativeSemanticNodeObservation), nodes[offset]? = some node →
        validateNode draft (index + offset) node = .ok () := by
  induction nodes generalizing index with
  | nil => simp [validateNodes]
  | cons node nodes ih =>
    rw [validateNodes, bind_eq_ok]
    constructor
    · rintro ⟨⟨⟩, hnode, hrest⟩ offset later hget
      cases offset with
      | zero =>
        cases hget
        exact hnode
      | succ offset =>
        rw [show index + (offset + 1) = index + 1 + offset by omega]
        exact ih.mp hrest offset later hget
    · intro h
      refine ⟨(), h 0 node rfl, ih.mpr ?_⟩
      intro offset later hget
      rw [show index + 1 + offset = index + (offset + 1) by omega]
      exact h (offset + 1) later hget

/-- What a draft that passes has: a coherent revision, later than the current one. -/
theorem validate_ok (h : cache.validate draft = .ok ()) :
    (revisionOf objectHash draft).Coherent cache.providerIncarnationRef cache.targetIncarnationRef ∧
      ∀ current, cache.current = some current → current.captureSequence < draft.captureSequence := by
  unfold validate at h
  simp only [rejectIf_bind_eq_ok, ne_eq, not_not] at h
  obtain ⟨hprovider, htarget, -, -, -, -, hsequence, hestablished, hexhaustion, hcounted, hnodes⟩ := h
  have hnode : ∀ (index : Nat) (node : NativeSemanticNodeObservation),
      draft.nodes[index]? = some node → validateNode draft index node = .ok () := by
    intro index node hget
    have := validateNodes_ok.mp hnodes index node hget
    rwa [Nat.zero_add] at this
  have hmem : ∀ node ∈ draft.nodes, ∃ index, validateNode draft index node = .ok () := by
    intro node hmem
    obtain ⟨index, hget⟩ := mem_iff_getElem?.mp hmem
    exact ⟨index, hnode index node hget⟩
  refine ⟨⟨hprovider, htarget, ?_, ?_, ?_, ?_, hcounted, hexhaustion, ?_⟩, ?_⟩
  · intro node hm
    obtain ⟨index, hok⟩ := hmem node hm
    exact (validateNode_ok.mp hok).1.trans hprovider
  · intro node hm
    obtain ⟨index, hok⟩ := hmem node hm
    exact (validateNode_ok.mp hok).2.1.trans htarget
  · intro node hm
    obtain ⟨index, hok⟩ := hmem node hm
    exact (validateNode_ok.mp hok).2.2.1
  · intro index node hget
    exact (validateNode_ok.mp (hnode index node hget)).2.2.2
  · intro heq
    show draft.resourceUsage.exhausted = [] ∧ draft.incompletenessDebt = []
    have hcomplete := fun h => hestablished ⟨heq, h⟩
    have hall : (draft.resourceUsage.incomplete = false ∧ draft.resourceUsage.exhausted = []) ∧
        draft.incompletenessDebt = [] := by simpa using hcomplete
    exact ⟨hall.1.2, hall.2⟩
  · intro current hcurrent
    simpa [hcurrent] using hsequence

/-- A publication: a refused draft changes nothing, and a revision becomes the current one. -/
theorem publish_cases {result : Except SnapshotPublishError NativeSemanticSnapshotRevision}
    (h : cache.publish objectHash draft = (result, cache')) :
    (∃ e, result = .error e ∧ cache' = cache) ∨
      cache.validate draft = .ok () ∧ result = .ok (revisionOf objectHash draft) ∧
        cache' = { cache with current := some (revisionOf objectHash draft) } := by
  unfold publish at h
  cases hvalidate : cache.validate draft with
  | error e =>
    rw [hvalidate] at h
    cases h
    exact .inl ⟨e, rfl, rfl⟩
  | ok u =>
    rw [hvalidate] at h
    cases h
    exact .inr ⟨rfl, rfl, rfl⟩

end SemanticSnapshotCache

/-! ## Runs of publications -/

/-- A draft, and what came of it. -/
abbrev Publication : Type :=
  NativeSemanticSnapshotDraft × Except SnapshotPublishError NativeSemanticSnapshotRevision

def PublishStep (objectHash : NativeSemanticSnapshotDraft → String) (cache : SemanticSnapshotCache)
    (publication : Publication) (cache' : SemanticSnapshotCache) : Prop :=
  cache.publish objectHash publication.1 = (publication.2, cache')

/-- The revisions published, in order. -/
def published (tr : List Publication) : List NativeSemanticSnapshotRevision :=
  tr.filterMap fun publication => publication.2.toOption

/-- The cache of a lineage after its publications. -/
structure Follows (providerIncarnationRef : ProviderIncarnationRef)
    (targetIncarnationRef : TargetIncarnationRef) (cache : SemanticSnapshotCache)
    (revisions : List NativeSemanticSnapshotRevision) : Prop where
  provider : cache.providerIncarnationRef = providerIncarnationRef
  target : cache.targetIncarnationRef = targetIncarnationRef
  current : cache.current = revisions.getLast?
  increasing : revisions.Pairwise fun r r' => r.captureSequence < r'.captureSequence
  coherent : ∀ revision ∈ revisions, revision.Coherent providerIncarnationRef targetIncarnationRef

section
variable {objectHash : NativeSemanticSnapshotDraft → String} {p : ProviderIncarnationRef}
  {t : TargetIncarnationRef} {cache cache' : SemanticSnapshotCache} {tr : List Publication}
  {publication : Publication} {revisions : List NativeSemanticSnapshotRevision}

/-- The last of an increasing list is above the others. -/
theorem lt_of_current (h : Follows p t cache revisions) {revision : NativeSemanticSnapshotRevision}
    (hlater : ∀ current, cache.current = some current →
      current.captureSequence < revision.captureSequence) :
    ∀ r ∈ revisions, r.captureSequence < revision.captureSequence := by
  intro r hr
  rcases eq_nil_or_concat revisions with rfl | ⟨earlier, last, rfl⟩
  · cases hr
  have hlast := hlater last (by rw [h.current, concat_eq_append, getLast?_concat])
  have hincreasing := h.increasing
  rw [concat_eq_append] at hr hincreasing
  rcases mem_append.mp hr with hr | hr
  · have hlt := (pairwise_append.mp hincreasing).2.2 r hr last (by simp)
    omega
  · obtain rfl := mem_singleton.mp hr
    exact hlast

open SemanticSnapshotCache

theorem Follows.step (h : Follows p t cache revisions)
    (hs : PublishStep objectHash cache publication cache') :
    Follows p t cache' (revisions ++ publication.2.toOption.toList) := by
  obtain ⟨e, hresult, rfl⟩ | ⟨hvalidate, hresult, rfl⟩ := publish_cases hs
  · rw [hresult]
    simpa [Except.toOption] using h
  · obtain ⟨hcoherent, hlater⟩ := @validate_ok cache _ objectHash hvalidate
    rw [h.provider, h.target] at hcoherent
    rw [hresult]
    refine ⟨h.provider, h.target, ?_, ?_, ?_⟩
    · simp [Except.toOption]
    · refine pairwise_append.mpr ⟨h.increasing, by simp [Except.toOption], ?_⟩
      intro r hr r' hr'
      obtain rfl : r' = revisionOf objectHash publication.1 := by
        simpa [Except.toOption] using hr'
      exact lt_of_current h hlater r hr
    · intro r hr
      rcases mem_append.mp hr with hr | hr
      · exact h.coherent r hr
      · obtain rfl : r = revisionOf objectHash publication.1 := by
          simpa [Except.toOption] using hr
        exact hcoherent

theorem published_snoc :
    published (tr ++ [publication]) = published tr ++ publication.2.toOption.toList := by
  obtain ⟨draft, result⟩ := publication
  unfold published
  rw [filterMap_append]
  cases result <;> rfl

theorem follows_run (hrun : Run (PublishStep objectHash) (.forLineage p t) tr cache) :
    Follows p t cache (published tr) := by
  refine hrun.forward_induction (P := fun tr cache => Follows p t cache (published tr)) ?_ ?_
  · exact ⟨rfl, rfl, rfl, List.Pairwise.nil, by simp [published]⟩
  · intro tr cache publication cache' _ h hs
    rw [published_snoc]
    exact h.step hs

/-- **Published revisions are coherent.**  Over any drafts the revisions of a lineage have
increasing capture sequences, the current one being the last; a refused draft changes
nothing; each revision agrees with its lineage, its cut and its usage; and a usage that
the budget guard produced is within the budget, with it the number of nodes. -/
theorem revisions_coherent (objectHash : NativeSemanticSnapshotDraft → String)
    (p : ProviderIncarnationRef) (t : TargetIncarnationRef)
    (hrun : Run (PublishStep objectHash) (.forLineage p t) tr cache) :
    (published tr).Pairwise (fun r r' => r.captureSequence < r'.captureSequence) ∧
      cache.current = (published tr).getLast? ∧
        (∀ draft e cache', PublishStep objectHash cache (draft, .error e) cache' →
          cache' = cache) ∧
          (∀ revision ∈ published tr, revision.Coherent p t) ∧
            ∀ budget asked, ((new budget).admitAll asked).2.finish.Within budget ∧
              ∀ revision ∈ published tr,
                revision.resourceUsage = ((new budget).admitAll asked).2.finish →
                  revision.nodes.length ≤ budget.maxNodes := by
  have h := follows_run hrun
  refine ⟨h.increasing, h.current, ?_, h.coherent, ?_⟩
  · intro draft e cache' hs
    obtain ⟨e', -, hsame⟩ | ⟨-, hresult, -⟩ := publish_cases hs
    · exact hsame
    · cases hresult
  · intro budget asked
    have hwithin := usage_within budget asked
    refine ⟨hwithin, fun revision hrevision husage => ?_⟩
    rw [← (h.coherent revision hrevision).counted, husage]
    exact hwithin.nodes

def sampleNode (id : String) (parentIndex : Option Nat) (depth : Nat) :
    NativeSemanticNodeObservation :=
  { elementRef :=
      { providerFamily := "windows_uia", providerIncarnationRef := ⟨"provider:1"⟩
        targetIncarnationRef := ⟨"target:1"⟩, opaqueProviderElementId := id
        semanticLocatorHints := [], parentSurfaceRef := none, acquisitionCutRef := "cut:1"
        realization := .realizedCurrent, lifetimeProfileRevision := "windows-uia-lifetime-v1" }
    attributes := AssocMap.empty, parentIndex, depth, role := none, name := none
    controlType := none, automationId := none, className := none, isEnabled := none
    isOffscreen := none }

/-- A draft of a window and a control in it. -/
def sampleDraft : NativeSemanticSnapshotDraft :=
  { providerIncarnationRef := ⟨"provider:1"⟩, targetIncarnationRef := ⟨"target:1"⟩
    snapshotCutRef := "cut:1", surfaceScope := "window", cacheProfileRevision := "cache-v1"
    permissionVisibilityRevision := "permissions-v1", captureSequence := 7
    nodes := [sampleNode "uia-runtime:[42]" none 0, sampleNode "uia-runtime:[42,1]" (some 0) 1]
    resourceUsage :=
      { nodesObserved := 2, propertiesRead := 6, maxDepthObserved := 1, exhausted := []
        incomplete := false }
    completeness := .established
    incompletenessDebt := [] }

/-- The draft is published, and refused when it comes again. -/
theorem revisions_coherent_sample :
    ∃ cache, Run (PublishStep fun _ => "sha256:0") (.forLineage ⟨"provider:1"⟩ ⟨"target:1"⟩)
        [(sampleDraft, .ok (revisionOf (fun _ => "sha256:0") sampleDraft)),
          (sampleDraft, .error .nonMonotonicCaptureSequence)] cache ∧
      cache.current = some (revisionOf (fun _ => "sha256:0") sampleDraft) ∧
        sampleDraft.nodes.length ≤ 2 := by
  have hrun : Run (PublishStep fun _ => "sha256:0") (.forLineage ⟨"provider:1"⟩ ⟨"target:1"⟩)
      [(sampleDraft, .ok (revisionOf (fun _ => "sha256:0") sampleDraft)),
        (sampleDraft, .error .nonMonotonicCaptureSequence)] _ :=
    Run.cons rfl (Run.cons rfl (Run.nil _))
  have h := revisions_coherent _ _ _ hrun
  refine ⟨_, hrun, h.2.1, ?_⟩
  exact (h.2.2.2.2 { maxNodes := 2, maxDepth := 4, maxProperties := 8 } [(0, 3), (1, 3)]).2
    (revisionOf (fun _ => "sha256:0") sampleDraft)
    (mem_singleton.mpr rfl) rfl

end
end Localview.NativeProvider
