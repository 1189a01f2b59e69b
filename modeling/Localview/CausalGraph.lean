import Mathlib.Data.List.Destutter
import Mathlib.Data.String.Basic
import Localview.BreadthFirst
import Localview.OrderedMap

/-! # The blast radius of a causal graph

Nodes are inserted by id and edges between them with a confidence; `blast_radius` goes over
the edges from a node breadth first and lists what they lead to, each with the least
confidence on the way.  A node found is gone on from once, by the path it was first found
by, so what lies behind it is given the confidence of that path and not of the best.

Confidences are exact.
-/
namespace Localview
open List Function OrderedMap
open BreadthFirst (Leads IsFirst Search Settled)

/-- What a node of the graph stands for. -/
inductive CausalEntityKind
  | source | component | region | element | styleToken | asset | route | request | service
  | runtimeState | consoleIssue | visualResult | contract

/-- Something of the page or its source. -/
structure CausalNode where
  id : String
  kind : CausalEntityKind
  label : String

/-- What an edge of the graph says. -/
inductive CausalRelation
  | renders | styles | imports | requests | triggers | dependsOn | produces | changes | mapsTo
  | derivedFrom
  deriving DecidableEq

/-- An edge; `source` is the field `from`, `target` the field `to`. -/
structure CausalEdge where
  (source target : String)
  relation : CausalRelation
  confidence : ℚ
  evidenceIds : List String
  deriving DecidableEq

/-- Nodes, and what leads to what. -/
structure CausalGraph where
  nodes : OrderedMap String CausalNode
  edges : List CausalEdge

structure ImpactNode where
  id : String
  depth : Nat
  confidence : ℚ
  via : CausalRelation
  evidenceIds : List String
  deriving DecidableEq

namespace CausalGraph

/-- `CausalGraph::default` -/
def empty : CausalGraph := ⟨.empty, []⟩

def upsertNode (graph : CausalGraph) (node : CausalNode) : CausalGraph :=
  { graph with nodes := graph.nodes.insert node.id node }

def sameRelation (edge candidate : CausalEdge) : Bool :=
  candidate.source = edge.source && candidate.target = edge.target &&
    candidate.relation = edge.relation

/-- An edge that was there, with what the new one says of it. -/
def mergeEdge (edge existing : CausalEdge) : CausalEdge :=
  { existing with
    confidence :=
      if existing.confidence < edge.confidence then edge.confidence else existing.confidence
    evidenceIds := ((existing.evidenceIds ++ edge.evidenceIds).insertionSort (· ≤ ·)).destutter
      (· ≠ ·) }

/-- `f32::clamp` to the unit interval. -/
def clampUnit (confidence : ℚ) : ℚ :=
  if confidence < 0 then 0 else if 1 < confidence then 1 else confidence

def modifyFirst (passes : CausalEdge → Bool) (change : CausalEdge → CausalEdge) :
    List CausalEdge → List CausalEdge
  | [] => []
  | edge :: rest =>
    if passes edge then change edge :: rest else edge :: modifyFirst passes change rest

def addEdge (graph : CausalGraph) (edge : CausalEdge) : CausalGraph × Bool :=
  if (graph.nodes.get edge.source).isNone || (graph.nodes.get edge.target).isNone then
    (graph, false)
  else
    let edge := { edge with confidence := clampUnit edge.confidence }
    if graph.edges.any (sameRelation edge) then
      ({ graph with edges := modifyFirst (sameRelation edge) (mergeEdge edge) graph.edges }, true)
    else ({ graph with edges := graph.edges ++ [edge] }, true)

/-- What the loop keeps. -/
structure Sweep where
  queue : List (String × Nat × ℚ)
  best : OrderedMap String ImpactNode
  visitedDepth : OrderedMap String Nat

/-- The entry of a node replaced where the candidate's confidence is greater. -/
def keepBest (best : OrderedMap String ImpactNode) (candidate : ImpactNode) :
    OrderedMap String ImpactNode :=
  match best.get candidate.id with
  | some existing =>
    if existing.confidence < candidate.confidence then best.insert candidate.id candidate
    else best
  | none => best.insert candidate.id candidate

/-- `is_none_or(|known_depth| next_depth < *known_depth)` -/
def shouldVisit (nextDepth : Nat) : Option Nat → Bool
  | none => true
  | some knownDepth => nextDepth < knownDepth

/-- The body of the inner loop. -/
def considerEdge (minConfidence : ℚ) (depth : Nat) (pathConfidence : ℚ) (s : Sweep)
    (edge : CausalEdge) : Sweep :=
  if edge.confidence < minConfidence then s
  else
    let nextDepth := depth + 1
    let nextConfidence := min pathConfidence edge.confidence
    let best := keepBest s.best
      ⟨edge.target, nextDepth, nextConfidence, edge.relation, edge.evidenceIds⟩
    if shouldVisit nextDepth (s.visitedDepth.get edge.target) then
      { queue := s.queue ++ [(edge.target, nextDepth, nextConfidence)], best := best
        visitedDepth := s.visitedDepth.insert edge.target nextDepth }
    else { s with best := best }

/-- One turn of the outer loop. -/
def sweepTurn (graph : CausalGraph) (maxDepth : Nat) (minConfidence : ℚ) (s : Sweep) : Sweep :=
  match s.queue with
  | [] => s
  | (current, depth, pathConfidence) :: rest =>
    if maxDepth ≤ depth then { s with queue := rest }
    else
      (graph.edges.filter fun edge => edge.source = current).foldl
        (considerEdge minConfidence depth pathConfidence) { s with queue := rest }

def startSweep (start : String) : Sweep where
  queue := [(start, 0, 1)]
  best := .empty
  visitedDepth := OrderedMap.empty.insert start 0

def impactLe (left right : ImpactNode) : Prop :=
  left.depth < right.depth ∨ left.depth = right.depth ∧
    (right.confidence < left.confidence ∨
      left.confidence = right.confidence ∧ left.id ≤ right.id)

instance : DecidableRel impactLe := fun _ _ => inferInstanceAs (Decidable (_ ∨ _))

section
variable (graph : CausalGraph) (start : String) (maxDepth : Nat) (minConfidence : ℚ)

/-- The loop is left when the queue is empty, which it is after one turn for each edge and one
for the start (`queue_sweep`). -/
def sweep : Sweep :=
  (sweepTurn graph maxDepth minConfidence)^[graph.edges.length + 1] (startSweep start)

def blastRadius : List ImpactNode :=
  if (graph.nodes.get start).isNone then []
  else (graph.sweep start maxDepth minConfidence).best.values.insertionSort impactLe

/-- Every edge joins nodes and has a confidence in the unit interval. -/
structure WellFormed (graph : CausalGraph) : Prop where
  source : ∀ edge ∈ graph.edges, (graph.nodes.get edge.source).isSome
  target : ∀ edge ∈ graph.edges, (graph.nodes.get edge.target).isSome
  unit : ∀ edge ∈ graph.edges, 0 ≤ edge.confidence ∧ edge.confidence ≤ 1

/-! ## Paths -/

/-- A path from a node over edges of at least the confidence. -/
inductive Path (graph : CausalGraph) (minConfidence : ℚ) (start : String) :
    List CausalEdge → String → Prop
  | start : (graph.nodes.get start).isSome → Path graph minConfidence start [] start
  | along {path : List CausalEdge} {edge : CausalEdge} :
      Path graph minConfidence start path edge.source → edge ∈ graph.edges →
      minConfidence ≤ edge.confidence →
      Path graph minConfidence start (path ++ [edge]) edge.target

def Bottleneck (path : List CausalEdge) (confidence : ℚ) : Prop :=
  IsLeast {c | ∃ edge ∈ path, edge.confidence = c} confidence

/-- A path that the depth allows, not the empty one. -/
structure Reach (path : List CausalEdge) (id : String) : Prop where
  leads : Path graph minConfidence start path id
  nonempty : path ≠ []
  short : path.length ≤ maxDepth

end

/-- Where the edge at a position leads from a node. -/
def step (graph : CausalGraph) (minConfidence : ℚ) (id : String) (position : Nat) :
    Option String :=
  match graph.edges[position]? with
  | none => none
  | some edge =>
    if edge.source = id ∧ minConfidence ≤ edge.confidence then some edge.target else none

def carried (graph : CausalGraph) (positions : List Nat) : ℚ :=
  positions.foldl (fun confidence position =>
    match graph.edges[position]? with
    | none => confidence
    | some edge => min confidence edge.confidence) 1

variable {graph : CausalGraph} {start : String} {maxDepth : Nat} {minConfidence : ℚ} {id : String}
  {path : List CausalEdge} {positions : List Nat} {position : Nat} {s : Sweep}
  {search : Search String} {candidate : ImpactNode} {best : OrderedMap String ImpactNode}

theorem step_eq_some {id id' : String} :
    graph.step minConfidence id position = some id' ↔
      ∃ edge, graph.edges[position]? = some edge ∧ edge.source = id ∧
        minConfidence ≤ edge.confidence ∧ edge.target = id' := by
  rw [step]
  cases hedge : graph.edges[position]? with
  | none => simp
  | some edge =>
    simp only [Option.some.injEq, exists_eq_left', Option.ite_none_right_eq_some, and_assoc]

theorem carried_snoc {edge : CausalEdge}
    (h : graph.edges[position]? = some edge) :
    graph.carried (positions ++ [position]) = min (graph.carried positions) edge.confidence := by
  rw [carried, foldl_append, foldl_cons, foldl_nil, h]
  rfl

theorem le_carried_iff {c : ℚ} :
    c ≤ graph.carried positions ↔ c ≤ 1 ∧
      ∀ position ∈ positions, ∀ edge, graph.edges[position]? = some edge →
        c ≤ edge.confidence := by
  induction positions using List.reverseRecOn with
  | nil =>
    constructor
    · exact fun h => ⟨h, fun _ hmem => nomatch hmem⟩
    · exact fun h => h.1
  | append_singleton positions position ih =>
    cases hedge : graph.edges[position]? with
    | none =>
      have hsame : graph.carried (positions ++ [position]) = graph.carried positions := by
        rw [carried, foldl_append, foldl_cons, foldl_nil, hedge]
        rfl
      rw [hsame, ih]
      refine and_congr_right fun _ => ⟨fun h p hp edge he => ?_, fun h p hp => ?_⟩
      · rcases mem_append.mp hp with hp | hp
        · exact h p hp edge he
        · rw [mem_singleton.mp hp, hedge] at he
          cases he
      · exact h p (mem_append_left _ hp)
    | some edge =>
      rw [carried_snoc hedge, le_min_iff, ih, and_assoc]
      refine and_congr_right fun _ => ⟨fun h p hp e he => ?_, fun h => ⟨fun p hp => ?_, ?_⟩⟩
      · rcases mem_append.mp hp with hp | hp
        · exact h.1 p hp e he
        · rw [mem_singleton.mp hp, hedge] at he
          cases he
          exact h.2
      · exact h p (mem_append_left _ hp)
      · exact h position (mem_append_right _ (mem_singleton.mpr rfl)) edge hedge

def EdgesAt (graph : CausalGraph) (positions : List Nat) (path : List CausalEdge) : Prop :=
  positions.map (graph.edges[·]?) = path.map some

theorem EdgesAt.length_eq (h : EdgesAt graph positions path) : positions.length = path.length := by
  have hlength := congrArg List.length h
  rwa [length_map, length_map] at hlength

theorem EdgesAt.snoc {edge : CausalEdge} (h : EdgesAt graph positions path)
    (hedge : graph.edges[position]? = some edge) :
    EdgesAt graph (positions ++ [position]) (path ++ [edge]) := by
  rw [EdgesAt, map_append, map_append, h, map_singleton, hedge,
    map_singleton]

theorem EdgesAt.le_carried_iff {c : ℚ}
    (h : EdgesAt graph positions path) :
    c ≤ graph.carried positions ↔ c ≤ 1 ∧ ∀ edge ∈ path, c ≤ edge.confidence := by
  have hmem : ∀ edge, (∃ position ∈ positions, graph.edges[position]? = some edge) ↔
      edge ∈ path := by
    intro edge
    rw [← mem_map, h, mem_map]
    simp only [Option.some.injEq, exists_eq_right]
  rw [CausalGraph.le_carried_iff]
  refine and_congr_right fun _ => ⟨fun hle edge hedge => ?_, fun hle position hp edge he => ?_⟩
  · obtain ⟨position, hp, he⟩ := (hmem edge).mpr hedge
    exact hle position hp edge he
  · exact hle edge ((hmem edge).mp ⟨position, hp, he⟩)

/-- A word of positions leads where the path over their edges does. -/
theorem exists_path_of_leads (hstart : (graph.nodes.get start).isSome)
    (h : Leads (graph.step minConfidence) start positions id) :
    ∃ path, Path graph minConfidence start path id ∧ EdgesAt graph positions path := by
  induction h with
  | root => exact ⟨[], .start hstart, rfl⟩
  | snoc _ hstep ih =>
    obtain ⟨path, hpath, hedges⟩ := ih
    obtain ⟨edge, hedge, rfl, hconfidence, rfl⟩ := step_eq_some.mp hstep
    exact ⟨path ++ [edge], .along hpath (mem_of_getElem? hedge) hconfidence,
      hedges.snoc hedge⟩

theorem Path.start_isSome
    (h : Path graph minConfidence start path id) : (graph.nodes.get start).isSome := by
  induction h with
  | start hstart => exact hstart
  | along _ _ _ ih => exact ih

theorem Path.exists_leads (h : Path graph minConfidence start path id) :
    ∃ positions, Leads (graph.step minConfidence) start positions id ∧
      EdgesAt graph positions path := by
  induction h with
  | start => exact ⟨[], .root, rfl⟩
  | along _ hmem hconfidence ih =>
    obtain ⟨positions, hleads, hedges⟩ := ih
    obtain ⟨position, hedge⟩ := mem_iff_getElem?.mp hmem
    exact ⟨positions ++ [position],
      .snoc hleads (step_eq_some.mpr ⟨_, hedge, rfl, hconfidence, rfl⟩), hedges.snoc hedge⟩

/-- Every path but the empty one has a least confidence. -/
theorem exists_bottleneck (h : path ≠ []) :
    ∃ c, Bottleneck path c := by
  induction path with
  | nil => exact absurd rfl h
  | cons edge rest ih =>
    by_cases hrest : rest = []
    · refine ⟨edge.confidence, ⟨edge, mem_cons_self, rfl⟩, ?_⟩
      rintro _ ⟨other, hother, rfl⟩
      rw [hrest, mem_singleton] at hother
      rw [hother]
    · obtain ⟨c, ⟨least, hleast, hc⟩, hlower⟩ := ih hrest
      by_cases hle : edge.confidence ≤ c
      · refine ⟨edge.confidence, ⟨edge, mem_cons_self, rfl⟩, ?_⟩
        rintro _ ⟨other, hother, rfl⟩
        rcases mem_cons.mp hother with rfl | hother
        · exact le_refl _
        · exact hle.trans (hlower ⟨other, hother, rfl⟩)
      · refine ⟨c, ⟨least, mem_cons_of_mem _ hleast, hc⟩, ?_⟩
        rintro _ ⟨other, hother, rfl⟩
        rcases mem_cons.mp hother with rfl | hother
        · exact (not_le.mp hle).le
        · exact hlower ⟨other, hother, rfl⟩

/-! ## The sweep is the search -/

/-- The loop's variables against the search over positions, with some steps still to be
taken: an entry of `best` is offered by a step taken, and has the confidence of all those to
its node. -/
structure Mirrors (graph : CausalGraph) (maxDepth : Nat) (minConfidence : ℚ)
    (todo : List Nat × String → Nat → Prop) (s : Sweep) (search : Search String) : Prop where
  queue : s.queue = search.waiting.map fun entry =>
    (entry.2, entry.1.length, graph.carried entry.1)
  visited : ∀ id depth, s.visitedDepth.get id = some depth ↔
    ∃ positions, (positions, id) ∈ search.found ∧ positions.length = depth
  offered : ∀ id impact, s.best.get id = some impact → impact.id = id ∧
    ∃ entry ∈ search.done, entry.1.length < maxDepth ∧ ∃ position,
      graph.step minConfidence entry.2 position = some id ∧
      impact.confidence = graph.carried (entry.1 ++ [position])
  kept : ∀ entry ∈ search.done, entry.1.length < maxDepth → ∀ position id,
    ¬ todo entry position → graph.step minConfidence entry.2 position = some id →
    ∃ impact, s.best.get id = some impact ∧
      graph.carried (entry.1 ++ [position]) ≤ impact.confidence

theorem mirrors_start (todo : List Nat × String → Nat → Prop) :
    Mirrors graph maxDepth minConfidence todo (startSweep start) ⟨[], [([], start)]⟩ where
  queue := rfl
  visited id depth := by
    rw [startSweep, get_insert, get_empty]
    simp only [Search.found, nil_append, mem_singleton, Prod.mk.injEq]
    split_ifs with hid
    · rw [Option.some.injEq]
      refine ⟨fun h => ⟨[], ⟨rfl, hid⟩, h⟩, ?_⟩
      rintro ⟨_, ⟨rfl, -⟩, h⟩
      exact h
    · constructor
      · intro h
        cases h
      · rintro ⟨_, ⟨-, h⟩, -⟩
        exact absurd h hid
  offered _ _ h := by cases h
  kept _ h := by cases h

theorem get_keepBest {impact : ImpactNode} (h : (keepBest best candidate).get id = some impact) :
    id = candidate.id ∧ impact = candidate ∨ best.get id = some impact := by
  rw [keepBest] at h
  have hset : (best.insert candidate.id candidate).get id = some impact →
      id = candidate.id ∧ impact = candidate ∨ best.get id = some impact := by
    intro h
    rw [get_insert] at h
    split_ifs at h with hid
    · exact .inl ⟨hid, (Option.some.inj h).symm⟩
    · exact .inr h
  cases hexisting : best.get candidate.id with
  | none =>
    rw [hexisting] at h
    exact hset h
  | some existing =>
    rw [hexisting] at h
    simp only at h
    split_ifs at h
    · exact hset h
    · exact .inr h

/-- No entry is lost, and none loses confidence. -/
theorem keepBest_le {impact : ImpactNode} (h : best.get id = some impact) :
    ∃ impact', (keepBest best candidate).get id = some impact' ∧
      impact.confidence ≤ impact'.confidence := by
  rw [keepBest]
  by_cases hid : id = candidate.id
  · rw [hid] at h
    rw [h]
    simp only
    split_ifs with hlt
    · exact ⟨candidate, by rw [get_insert, if_pos hid], hlt.le⟩
    · exact ⟨impact, hid ▸ h, le_refl _⟩
  · cases hexisting : best.get candidate.id with
    | none => exact ⟨impact, by rw [get_insert, if_neg hid, h], le_refl _⟩
    | some existing =>
      simp only
      split_ifs
      · exact ⟨impact, by rw [get_insert, if_neg hid, h], le_refl _⟩
      · exact ⟨impact, h, le_refl _⟩

theorem candidate_le_keepBest (best : OrderedMap String ImpactNode) (candidate : ImpactNode) :
    ∃ impact, (keepBest best candidate).get candidate.id = some impact ∧
      candidate.confidence ≤ impact.confidence := by
  rw [keepBest]
  cases hexisting : best.get candidate.id with
  | none => exact ⟨candidate, by rw [get_insert, if_pos rfl], le_refl _⟩
  | some existing =>
    simp only
    split_ifs with hlt
    · exact ⟨candidate, by rw [get_insert, if_pos rfl], le_refl _⟩
    · exact ⟨existing, hexisting, not_lt.mp hlt⟩

/-- The steps from the word in hand that are still to be taken. -/
def Onward (current : List Nat × String) (k : Nat) (entry : List Nat × String) (position : Nat) :
    Prop :=
  entry = current ∧ k ≤ position

/-- An edge that is not a step from the node changes nothing. -/
theorem Mirrors.skip {current : List Nat × String} {k : Nat}
    (h : Mirrors graph maxDepth minConfidence (Onward current k) s search)
    (hnone : graph.step minConfidence current.2 k = none) :
    Mirrors graph maxDepth minConfidence (Onward current (k + 1)) s search := by
  refine { h with kept := fun entry hentry hshort position id htodo hstep => ?_ }
  refine h.kept entry hentry hshort position id (fun hnow => ?_) hstep
  obtain ⟨rfl, hk⟩ := hnow
  by_cases hposition : position = k
  · rw [hposition, hnone] at hstep
    cases hstep
  · exact htodo ⟨rfl, by omega⟩

/-- **One edge of the inner loop** is one step of the search. -/
theorem Mirrors.considerEdge {current : List Nat × String} {k : Nat} {edge : CausalEdge}
    (hmid : BreadthFirst.Mid (graph.step minConfidence) start maxDepth current k search)
    (h : Mirrors graph maxDepth minConfidence (Onward current k) s search)
    (hedge : graph.edges[k]? = some edge) (hsource : edge.source = current.2) :
    Mirrors graph maxDepth minConfidence (Onward current (k + 1))
      (considerEdge minConfidence current.1.length (graph.carried current.1) s edge)
      (BreadthFirst.consider (graph.step minConfidence) current.1 current.2 search k) := by
  rw [CausalGraph.considerEdge]
  by_cases hlow : edge.confidence < minConfidence
  · have hnone : graph.step minConfidence current.2 k = none := by
      rw [step, hedge]
      exact if_neg fun hpasses => absurd hlow (not_lt.mpr hpasses.2)
    rw [if_pos hlow, BreadthFirst.consider, hnone]
    exact h.skip hnone
  · have hstep : graph.step minConfidence current.2 k = some edge.target :=
      step_eq_some.mpr ⟨edge, hedge, hsource, not_lt.mp hlow, rfl⟩
    have hcarried : graph.carried (current.1 ++ [k]) =
        min (graph.carried current.1) edge.confidence := carried_snoc hedge
    let candidate : ImpactNode := ⟨edge.target, current.1.length + 1,
      min (graph.carried current.1) edge.confidence, edge.relation, edge.evidenceIds⟩
    have hoffered : ∀ id impact, (keepBest s.best candidate).get id = some impact →
        impact.id = id ∧ ∃ entry ∈ search.done, entry.1.length < maxDepth ∧ ∃ position,
          graph.step minConfidence entry.2 position = some id ∧
          impact.confidence = graph.carried (entry.1 ++ [position]) := by
      intro id impact hget
      rcases get_keepBest hget with ⟨rfl, rfl⟩ | hget
      · exact ⟨rfl, current, hmid.isDone, hmid.short, k, hstep, hcarried.symm⟩
      · exact h.offered id impact hget
    have hkept : ∀ entry ∈ search.done, entry.1.length < maxDepth → ∀ position id,
        ¬ Onward current (k + 1) entry position →
        graph.step minConfidence entry.2 position = some id →
        ∃ impact, (keepBest s.best candidate).get id = some impact ∧
          graph.carried (entry.1 ++ [position]) ≤ impact.confidence := by
      intro entry hentry hshort position id htodo hid
      by_cases hnow : Onward current k entry position
      · -- the step just taken
        obtain ⟨rfl, hk⟩ := hnow
        have hposition : position = k := by
          by_contra hne
          exact htodo ⟨rfl, by omega⟩
        rw [hposition, hstep] at hid
        cases hid
        rw [hposition, hcarried]
        exact candidate_le_keepBest s.best candidate
      · obtain ⟨impact, hget, hle⟩ := h.kept entry hentry hshort position id hnow hid
        obtain ⟨impact', hget', hle'⟩ := @keepBest_le _ candidate _ _ hget
        exact ⟨impact', hget', hle.trans hle'⟩
    rw [if_neg hlow, BreadthFirst.consider, hstep]
    simp only
    by_cases hany : (search.found.any fun entry => entry.2 = edge.target) = true
    · -- a node found before was found at no greater depth, so it is not visited again
      obtain ⟨⟨positions, id⟩, hfound, hid⟩ := any_eq_true.mp hany
      have hid : id = edge.target := of_decide_eq_true hid
      subst hid
      have hdepth := (h.visited edge.target positions.length).mpr ⟨positions, hfound, rfl⟩
      have hbound := (hmid.below _ hfound).length_le
      have hvisit : shouldVisit (current.1.length + 1)
          (s.visitedDepth.get edge.target) = false := by
        rw [hdepth]
        apply decide_eq_false
        rw [length_append, length_singleton] at hbound
        simp only at hbound
        omega
      rw [if_pos hany, hvisit, if_neg Bool.false_ne_true]
      exact ⟨h.queue, h.visited, hoffered, hkept⟩
    · have hfresh : ∀ positions, (positions, edge.target) ∉ search.found := fun positions hmem =>
        hany (any_eq_true.mpr ⟨_, hmem, decide_eq_true rfl⟩)
      have hdepth : s.visitedDepth.get edge.target = none := by
        cases hget : s.visitedDepth.get edge.target with
        | none => rfl
        | some depth =>
          obtain ⟨positions, hmem, -⟩ := (h.visited _ _).mp hget
          exact absurd hmem (hfresh positions)
      rw [if_neg hany, hdepth, shouldVisit, if_pos rfl]
      refine ⟨?_, fun id depth => ?_, hoffered, hkept⟩
      · rw [h.queue, map_append, map_singleton, hcarried, length_append,
          length_singleton]
      · rw [get_insert, BreadthFirst.found_push]
        simp only [mem_append, mem_singleton, Prod.mk.injEq]
        split_ifs with hid
        · rw [Option.some.injEq, hid]
          constructor
          · rintro rfl
            refine ⟨_, .inr ⟨rfl, rfl⟩, ?_⟩
            rw [length_append, length_singleton]
          · rintro ⟨positions, hmem | ⟨rfl, -⟩, rfl⟩
            · exact absurd hmem (hfresh positions)
            · rw [length_append, length_singleton]
        · rw [h.visited]
          refine exists_congr fun positions => and_congr_left fun _ => ?_
          exact ⟨.inl, fun hmem => hmem.resolve_right fun hnew => hid hnew.2⟩

/-- The inner loop over the first so many edges. -/
theorem Mirrors.considerTo {current : List Nat × String}
    (hmid : BreadthFirst.Mid (graph.step minConfidence) start maxDepth current 0 search)
    (h : Mirrors graph maxDepth minConfidence (Onward current 0) s search) {k : Nat}
    (hk : k ≤ graph.edges.length) :
    Mirrors graph maxDepth minConfidence (Onward current k)
      (((graph.edges.take k).filter fun edge => edge.source = current.2).foldl
        (CausalGraph.considerEdge minConfidence current.1.length (graph.carried current.1)) s)
      (BreadthFirst.considerTo (graph.step minConfidence) current.1 current.2 search k) := by
  induction k with
  | zero => exact h
  | succ k ih =>
    have hlt : k < graph.edges.length := hk
    have hedge : graph.edges[k]? = some graph.edges[k] := getElem?_eq_getElem hlt
    have hprev := ih (Nat.le_of_lt hlt)
    have hmidk := hmid.considerTo (k := k)
    rw [BreadthFirst.considerTo, range_succ, foldl_append, take_add_one, hedge,
      filter_append, foldl_append]
    by_cases hsource : graph.edges[k].source = current.2
    · rw [Option.toList_some, filter_singleton, decide_eq_true hsource]
      exact hprev.considerEdge hmidk hedge hsource
    · have hnone : graph.step minConfidence current.2 k = none := by
        rw [step, hedge]
        exact if_neg fun hpasses => hsource hpasses.1
      rw [Option.toList_some, filter_singleton, decide_eq_false hsource]
      simp only [foldl_cons, foldl_nil, cond_false]
      rw [BreadthFirst.consider, hnone]
      exact hprev.skip hnone

/-- No step is left. -/
def Taken (_ : List Nat × String) (_ : Nat) : Prop := False

theorem step_lt
    (h : graph.step minConfidence id position ≠ none) : position < graph.edges.length := by
  obtain ⟨id', hid'⟩ := Option.ne_none_iff_exists'.mp h
  obtain ⟨edge, hedge, -⟩ := step_eq_some.mp hid'
  exact (List.getElem?_eq_some_iff.mp hedge).1

/-- **One turn of the outer loop** is one turn of the search. -/
theorem Mirrors.sweepTurn (hsettled : Settled (graph.step minConfidence) start maxDepth search)
    (h : Mirrors graph maxDepth minConfidence Taken s search) :
    Mirrors graph maxDepth minConfidence Taken (sweepTurn graph maxDepth minConfidence s)
      (BreadthFirst.turn (graph.step minConfidence) graph.edges.length maxDepth search) := by
  obtain ⟨done, waiting⟩ := search
  have hqueue := h.queue
  rw [CausalGraph.sweepTurn]
  cases waiting with
  | nil =>
    rw [map_nil] at hqueue
    rw [hqueue]
    exact h
  | cons entry rest =>
    obtain ⟨word, node⟩ := entry
    rw [map_cons] at hqueue
    rw [hqueue]
    simp only [BreadthFirst.turn]
    -- the node taken off the queue, with its steps still to be taken
    have hpopped : Mirrors graph maxDepth minConfidence (fun entry _ => entry = (word, node))
        { s with queue := rest.map fun entry =>
          (entry.2, entry.1.length, graph.carried entry.1) }
        ⟨done ++ [(word, node)], rest⟩ := by
      refine ⟨rfl, ?_, fun id impact hget => ?_, fun other hother hshort k id htodo hid => ?_⟩
      · rw [BreadthFirst.found_pop]
        exact h.visited
      · obtain ⟨hid, other, hother, hoffer⟩ := h.offered id impact hget
        exact ⟨hid, other, mem_append_left _ hother, hoffer⟩
      · rcases mem_append.mp hother with hother | hother
        · exact h.kept other hother hshort k id (fun hfalse => hfalse) hid
        · exact absurd (mem_singleton.mp hother) htodo
    split_ifs with hlong
    · refine { hpopped with kept := fun other hother hshort k id _ hid => ?_ }
      refine hpopped.kept other hother hshort k id (fun heq => ?_) hid
      rw [heq] at hshort
      exact absurd hshort (Nat.not_lt.mpr hlong)
    · have hmid : BreadthFirst.Mid (graph.step minConfidence) start maxDepth (word, node) 0
          ⟨done ++ [(word, node)], rest⟩ := hsettled.mid (Nat.lt_of_not_le hlong)
      have honward : Mirrors graph maxDepth minConfidence (Onward (word, node) 0)
          { s with queue := rest.map fun entry =>
            (entry.2, entry.1.length, graph.carried entry.1) }
          ⟨done ++ [(word, node)], rest⟩ := by
        refine { hpopped with kept := fun other hother hshort k id htodo hid => ?_ }
        exact hpopped.kept other hother hshort k id
          (fun heq => htodo ⟨heq, Nat.zero_le k⟩) hid
      have hall := honward.considerTo hmid (Nat.le_refl graph.edges.length)
      rw [take_length] at hall
      refine { hall with kept := fun other hother hshort k id _ hid => ?_ }
      refine hall.kept other hother hshort k id (fun htodo => ?_) hid
      have hk : k < graph.edges.length := step_lt (by rw [hid]; exact Option.some_ne_none _)
      exact absurd htodo.2 (Nat.not_le.mpr hk)

section
variable (graph : CausalGraph) (start : String) (maxDepth : Nat) (minConfidence : ℚ)

/-- The search over positions after so many turns. -/
def searchAfter (turns : Nat) : Search String :=
  (BreadthFirst.turn (graph.step minConfidence) graph.edges.length maxDepth)^[turns]
    ⟨[], [([], start)]⟩

theorem mirrors_searchAfter (turns : Nat) :
    Settled (graph.step minConfidence) start maxDepth
        (graph.searchAfter start maxDepth minConfidence turns) ∧
      Mirrors graph maxDepth minConfidence Taken
        ((CausalGraph.sweepTurn graph maxDepth minConfidence)^[turns] (startSweep start))
        (graph.searchAfter start maxDepth minConfidence turns) := by
  induction turns with
  | zero => exact ⟨BreadthFirst.settled_start maxDepth, mirrors_start Taken⟩
  | succ turns ih =>
    rw [searchAfter, iterate_succ_apply', iterate_succ_apply']
    exact ⟨ih.1.turn fun _ _ => step_lt, ih.2.sweepTurn ih.1⟩

theorem waiting_searchAfter :
    (graph.searchAfter start maxDepth minConfidence (graph.edges.length + 1)).waiting = [] := by
  have htargets : ∀ node position node', graph.step minConfidence node position = some node' →
      node' ∈ graph.edges.map CausalEdge.target := by
    intro node position node' hstep
    obtain ⟨edge, hedge, -, -, rfl⟩ := step_eq_some.mp hstep
    exact mem_map_of_mem (mem_of_getElem? hedge)
  apply BreadthFirst.waiting_iterate htargets
  rw [BreadthFirst.turnsLeft, BreadthFirst.unfound, length_singleton]
  have hle := length_filter_le (fun node => !(Search.found
    ⟨[], [(([] : List Nat), start)]⟩).any fun entry => entry.2 = node)
      (graph.edges.map CausalEdge.target)
  rw [length_map] at hle
  omega

theorem queue_sweep : (graph.sweep start maxDepth minConfidence).queue = [] := by
  rw [sweep, (mirrors_searchAfter graph start maxDepth minConfidence _).2.queue,
    waiting_searchAfter, map_nil]

/-! ## What is listed -/

/-- A node is offered a confidence where the first path to another, one edge shorter than the
depth allows, and an edge from there carry it. -/
def Offered (id : String) (confidence : ℚ) : Prop :=
  ∃ positions node position, IsFirst (graph.step minConfidence) start positions node ∧
    positions.length < maxDepth ∧ graph.step minConfidence node position = some id ∧
    confidence = graph.carried (positions ++ [position])

/-- An entry has the greatest confidence its node was offered. -/
theorem best_sweep :
    (∀ id impact, (graph.sweep start maxDepth minConfidence).best.get id = some impact →
      impact.id = id ∧
        IsGreatest {c | Offered graph start maxDepth minConfidence id c} impact.confidence) ∧
    ∀ id c, Offered graph start maxDepth minConfidence id c →
      ∃ impact, (graph.sweep start maxDepth minConfidence).best.get id = some impact := by
  obtain ⟨hsettled, hmirrors⟩ := mirrors_searchAfter graph start maxDepth minConfidence
    (graph.edges.length + 1)
  have hdone : ∀ positions node, (positions, node) ∈ (graph.searchAfter start maxDepth
      minConfidence (graph.edges.length + 1)).done ↔
      IsFirst (graph.step minConfidence) start positions node ∧ positions.length ≤ maxDepth :=
    fun _ _ => hsettled.mem_done_iff (waiting_searchAfter graph start maxDepth minConfidence)
  have hkept : ∀ id c, Offered graph start maxDepth minConfidence id c →
      ∃ impact, (graph.sweep start maxDepth minConfidence).best.get id = some impact ∧
        c ≤ impact.confidence := by
    rintro id c ⟨positions, node, position, hfirst, hshort, hstep, rfl⟩
    exact hmirrors.kept (positions, node) ((hdone _ _).mpr ⟨hfirst, Nat.le_of_lt hshort⟩)
      hshort position id (fun hfalse => hfalse) hstep
  refine ⟨fun id impact hget => ?_, fun id c hoffered => ?_⟩
  · obtain ⟨hid, ⟨positions, node⟩, hentry, hshort, position, hstep, hconfidence⟩ :=
      hmirrors.offered id impact hget
    refine ⟨hid, ⟨positions, node, position, ((hdone _ _).mp hentry).1, hshort, hstep,
      hconfidence⟩, fun c hoffered => ?_⟩
    obtain ⟨impact', hget', hle⟩ := hkept id c hoffered
    rw [hget] at hget'
    cases hget'
    exact hle
  · obtain ⟨impact, hget, -⟩ := hkept id c hoffered
    exact ⟨impact, hget⟩

end

theorem mem_blastRadius {impact : ImpactNode} (hstart : (graph.nodes.get start).isSome) :
    impact ∈ graph.blastRadius start maxDepth minConfidence ↔
      (graph.sweep start maxDepth minConfidence).best.get impact.id = some impact := by
  have hsome : ¬ (graph.nodes.get start).isNone := by
    rw [Option.isNone_iff_eq_none]
    exact Option.ne_none_iff_isSome.mpr hstart
  rw [blastRadius, if_neg hsome, mem_insertionSort, mem_values]
  constructor
  · rintro ⟨id, hget⟩
    obtain ⟨rfl, -⟩ := (best_sweep graph start maxDepth minConfidence).1 id impact hget
    exact hget
  · exact fun hget => ⟨_, hget⟩

theorem nodup_blastRadius (graph : CausalGraph) (start : String) (maxDepth : Nat)
    (minConfidence : ℚ) :
    ((graph.blastRadius start maxDepth minConfidence).map ImpactNode.id).Nodup := by
  rw [blastRadius]
  split_ifs
  · exact nodup_nil
  · have hperm := (perm_insertionSort impactLe
      (graph.sweep start maxDepth minConfidence).best.values).map ImpactNode.id
    apply hperm.nodup_iff.mpr
    -- each entry is kept under its own id
    have hkeys : (graph.sweep start maxDepth minConfidence).best.values.map ImpactNode.id =
        (graph.sweep start maxDepth minConfidence).best.entries.map Prod.fst := by
      rw [OrderedMap.values, map_map]
      refine map_congr_left fun entry hentry => ?_
      exact ((best_sweep graph start maxDepth minConfidence).1 entry.1 entry.2
        (OrderedMap.mem_entries.mp hentry)).1
    rw [hkeys]
    exact nodup_keys _

/-- A path one edge longer than a first one. -/
theorem Offered.reach {id : String} {c : ℚ} (hstart : (graph.nodes.get start).isSome)
    (h : Offered graph start maxDepth minConfidence id c) :
    ∃ path, Reach graph start maxDepth minConfidence path id ∧
      ∀ edge ∈ path, c ≤ edge.confidence := by
  obtain ⟨positions, node, position, hfirst, hshort, hstep, rfl⟩ := h
  obtain ⟨path, hpath, hedges⟩ := exists_path_of_leads hstart (hfirst.leads.snoc hstep)
  have hlength := hedges.length_eq
  rw [length_append, length_singleton] at hlength
  refine ⟨path, ⟨hpath, fun hnil => ?_, by omega⟩, (hedges.le_carried_iff.mp (le_refl _)).2⟩
  rw [hnil, length_nil] at hlength
  cases hlength

/-- Where a path leads, an offer is made. -/
theorem Reach.offered {path : List CausalEdge} {id : String}
    (h : Reach graph start maxDepth minConfidence path id) :
    ∃ c, Offered graph start maxDepth minConfidence id c := by
  obtain ⟨hpath, hnonempty, hshort⟩ := h
  cases hpath with
  | start => exact absurd rfl hnonempty
  | along hpath hmem hconfidence =>
    obtain ⟨positions, hleads, hedges⟩ := hpath.exists_leads
    obtain ⟨first, hfirst, hle⟩ := BreadthFirst.exists_isFirst hleads
    obtain ⟨position, hedge⟩ := mem_iff_getElem?.mp hmem
    have hlength := hedges.length_eq
    rw [length_append, length_singleton] at hshort
    exact ⟨_, first, _, position, hfirst, by omega,
      step_eq_some.mpr ⟨_, hedge, rfl, hconfidence, rfl⟩, rfl⟩

/-- What is listed is what paths lead to, the start and ids without a node among it. -/
theorem listed_iff {id : String} :
    (∃ impact ∈ graph.blastRadius start maxDepth minConfidence, impact.id = id) ↔
      ∃ path, Reach graph start maxDepth minConfidence path id := by
  constructor
  · rintro ⟨impact, hmem, rfl⟩
    by_cases hstart : (graph.nodes.get start).isSome
    · obtain ⟨-, hoffered, -⟩ := (best_sweep graph start maxDepth minConfidence).1 _ _
        ((mem_blastRadius hstart).mp hmem)
      obtain ⟨path, hreach, -⟩ := Offered.reach hstart hoffered
      exact ⟨path, hreach⟩
    · rw [Bool.not_eq_true, Option.isSome_eq_false_iff] at hstart
      rw [blastRadius, if_pos hstart] at hmem
      cases hmem
  · rintro ⟨path, hreach⟩
    obtain ⟨c, hoffered⟩ := hreach.offered
    obtain ⟨impact, hget⟩ := (best_sweep graph start maxDepth minConfidence).2 id c hoffered
    obtain ⟨rfl, -⟩ := (best_sweep graph start maxDepth minConfidence).1 id impact hget
    exact ⟨impact, (mem_blastRadius hreach.leads.start_isSome).mpr hget, rfl⟩

/-! ## When it is the bottleneck-optimal reach -/

/-- The nodes other than the start that paths lead to, each once and with the greatest of
the least confidences on the paths to it. -/
structure BottleneckReach (graph : CausalGraph) (start : String) (maxDepth : Nat)
    (minConfidence : ℚ) : Prop where
  once : ((graph.blastRadius start maxDepth minConfidence).map ImpactNode.id).Nodup
  listed : ∀ id, (∃ impact ∈ graph.blastRadius start maxDepth minConfidence, impact.id = id) ↔
    (graph.nodes.get id).isSome ∧ id ≠ start ∧
      ∃ path, Reach graph start maxDepth minConfidence path id
  greatest : ∀ impact ∈ graph.blastRadius start maxDepth minConfidence,
    IsGreatest {c | ∃ path, Reach graph start maxDepth minConfidence path impact.id ∧
      Bottleneck path c} impact.confidence

/-- No path leads back to the start or to an id without a node, and no path has a greater least
confidence than some first path to a node, within the depth, and an edge from there carry. -/
structure FirstPathsBest (graph : CausalGraph) (start : String) (maxDepth : Nat)
    (minConfidence : ℚ) : Prop where
  away : ∀ path id, Reach graph start maxDepth minConfidence path id →
    (graph.nodes.get id).isSome ∧ id ≠ start
  best : ∀ path id c, Reach graph start maxDepth minConfidence path id → Bottleneck path c →
    ∃ positions node position, IsFirst (graph.step minConfidence) start positions node ∧
      positions.length < maxDepth ∧ graph.step minConfidence node position = some id ∧
      c ≤ graph.carried (positions ++ [position])

theorem bottleneckReach_iff : BottleneckReach graph start maxDepth minConfidence ↔
      FirstPathsBest graph start maxDepth minConfidence := by
  constructor
  · intro h
    refine ⟨fun path id hreach => ?_, fun path id c hreach hbottleneck => ?_⟩
    · obtain ⟨hnode, hne, -⟩ := (h.listed id).mp (listed_iff.mpr ⟨path, hreach⟩)
      exact ⟨hnode, hne⟩
    · obtain ⟨impact, hmem, rfl⟩ := listed_iff.mpr ⟨path, hreach⟩
      obtain ⟨-, ⟨positions, node, position, hfirst, hshort, hstep, hconfidence⟩, -⟩ :=
        (best_sweep graph start maxDepth minConfidence).1 _ _
          ((mem_blastRadius hreach.leads.start_isSome).mp hmem)
      refine ⟨positions, node, position, hfirst, hshort, hstep, ?_⟩
      rw [← hconfidence]
      exact (h.greatest impact hmem).2 ⟨path, hreach, hbottleneck⟩
  · intro h
    refine ⟨nodup_blastRadius _ _ _ _, fun id => ?_, fun impact hmem => ?_⟩
    · rw [listed_iff]
      constructor
      · rintro ⟨path, hreach⟩
        exact ⟨(h.away path id hreach).1, (h.away path id hreach).2, path, hreach⟩
      · exact fun hid => hid.2.2
    · obtain ⟨_, hany⟩ := listed_iff.mp ⟨impact, hmem, rfl⟩
      have hstart := hany.leads.start_isSome
      obtain ⟨-, hoffered, hgreatest⟩ := (best_sweep graph start maxDepth minConfidence).1 _ _
        ((mem_blastRadius hstart).mp hmem)
      have hupper : ∀ path c, Reach graph start maxDepth minConfidence path impact.id →
          Bottleneck path c → c ≤ impact.confidence := by
        intro path c hreach hbottleneck
        obtain ⟨positions, node, position, hfirst, hshort, hstep, hle⟩ :=
          h.best path impact.id c hreach hbottleneck
        exact hle.trans (hgreatest ⟨positions, node, position, hfirst, hshort, hstep, rfl⟩)
      -- the path of the offer has no edge of less confidence, so it is a best one
      obtain ⟨path, hreach, hedges⟩ := Offered.reach hstart hoffered
      obtain ⟨c, hbottleneck⟩ := exists_bottleneck hreach.nonempty
      obtain ⟨edge, hedge, hc⟩ := hbottleneck.1
      have hle := hupper path c hreach hbottleneck
      have hge : impact.confidence ≤ c := hc ▸ hedges edge hedge
      refine ⟨⟨path, hreach, ?_⟩, ?_⟩
      · rw [← hle.antisymm hge]
        exact hbottleneck
      · rintro other ⟨path', hreach', hbottleneck'⟩
        exact hupper path' other hreach' hbottleneck'

/-- The edges in another order. -/
structure Rearranged (graph graph' : CausalGraph) : Prop where
  nodes : graph'.nodes = graph.nodes
  edges : graph'.edges.Perm graph.edges

/-- **The blast radius is the bottleneck-optimal reach, in whatever order the edges were put
in,** exactly where in every order first paths are best. -/
theorem blastRadius_bottleneck (graph : CausalGraph) (start : String) (maxDepth : Nat)
    (minConfidence : ℚ) :
    (∀ graph', Rearranged graph graph' → BottleneckReach graph' start maxDepth minConfidence) ↔
      ∀ graph', Rearranged graph graph' →
        FirstPathsBest graph' start maxDepth minConfidence :=
  forall_congr' fun _ => imp_congr_right fun _ => bottleneckReach_iff

/-- A component that is rendered with little confidence, then styled with much, and renders. -/
def weakFirst : CausalGraph :=
  let graph := ["source", "component", "hero"].foldl
    (fun graph id => graph.upsertNode ⟨id, CausalEntityKind.region, id⟩) empty
  let graph := (graph.addEdge ⟨"source", "component", CausalRelation.renders, 1 / 5, []⟩).1
  let graph := (graph.addEdge ⟨"source", "component", CausalRelation.styles, 9 / 10, []⟩).1
  (graph.addEdge ⟨"component", "hero", CausalRelation.renders, 1, []⟩).1

theorem blastRadius_weakFirst : weakFirst.blastRadius "source" 2 0 =
      [⟨"component", 1, 9 / 10, CausalRelation.styles, []⟩,
        ⟨"hero", 2, 1 / 5, CausalRelation.renders, []⟩] := by decide +kernel

/-- The path over the style reaches the last with more confidence than it is listed with. -/
theorem weakFirst_not_bottleneck :
    ¬ ∀ graph', Rearranged weakFirst graph' → BottleneckReach graph' "source" 2 0 := by
  intro h
  let styles : CausalEdge := ⟨"source", "component", CausalRelation.styles, 9 / 10, []⟩
  let renders : CausalEdge := ⟨"component", "hero", CausalRelation.renders, 1, []⟩
  have hstyles : styles ∈ weakFirst.edges := by decide +kernel
  have hrenders : renders ∈ weakFirst.edges := by decide +kernel
  have hnode : (weakFirst.nodes.get "source").isSome := by decide +kernel
  have hpath : Path weakFirst 0 "source" [styles, renders] "hero" :=
    .along (.along (.start hnode) hstyles (by norm_num [styles])) hrenders
      (by norm_num [renders])
  have hbottleneck : Bottleneck [styles, renders] (9 / 10) := by
    refine ⟨⟨styles, mem_cons_self, rfl⟩, ?_⟩
    rintro _ ⟨edge, hedge, rfl⟩
    rcases mem_cons.mp hedge with rfl | hedge
    · exact le_refl _
    · rw [mem_singleton.mp hedge]
      norm_num [renders]
  have hlisted : (⟨"hero", 2, 1 / 5, CausalRelation.renders, []⟩ : ImpactNode) ∈
      weakFirst.blastRadius "source" 2 0 := by
    rw [blastRadius_weakFirst]
    exact mem_cons_of_mem _ mem_cons_self
  have hgreatest := (h weakFirst ⟨rfl, List.Perm.refl _⟩).greatest _ hlisted
  have hle := hgreatest.2 ⟨[styles, renders], ⟨hpath, cons_ne_nil _ _, le_refl _⟩,
    hbottleneck⟩
  norm_num at hle

/-! ## What the operations build -/

/-- The graphs that insertions build from the empty one. -/
inductive Built : CausalGraph → Prop
  | empty : Built empty
  | upsertNode {graph : CausalGraph} (node : CausalNode) :
      Built graph → Built (graph.upsertNode node)
  | addEdge {graph : CausalGraph} (edge : CausalEdge) :
      Built graph → Built (graph.addEdge edge).1

/-- What an edge joins, and how. -/
def joins (edge : CausalEdge) : String × String × CausalRelation :=
  (edge.source, edge.target, edge.relation)

section
variable {edges : List CausalEdge} {passes : CausalEdge → Bool}
  {change : CausalEdge → CausalEdge}

theorem forall_modifyFirst {P : CausalEdge → Prop} (h : ∀ edge ∈ edges, P edge)
    (hchange : ∀ edge, P edge → P (change edge)) :
    ∀ edge ∈ modifyFirst passes change edges, P edge := by
  induction edges with
  | nil => exact h
  | cons first rest ih =>
    obtain ⟨hfirst, hrest⟩ := forall_mem_cons.mp h
    unfold modifyFirst
    split_ifs
    · exact forall_mem_cons.mpr ⟨hchange first hfirst, hrest⟩
    · exact forall_mem_cons.mpr ⟨hfirst, ih hrest⟩

theorem joins_modifyFirst (h : ∀ existing, joins (change existing) = joins existing) :
    (modifyFirst passes change edges).map joins = edges.map joins := by
  induction edges with
  | nil => rfl
  | cons first rest ih =>
    unfold modifyFirst
    split_ifs
    · rw [map_cons, h, map_cons]
    · rw [map_cons, ih, map_cons]

end

theorem clampUnit_mem (confidence : ℚ) :
    0 ≤ clampUnit confidence ∧ clampUnit confidence ≤ 1 := by
  rw [clampUnit]
  split_ifs with hneg hone
  · exact ⟨le_refl 0, zero_le_one⟩
  · exact ⟨zero_le_one, le_refl 1⟩
  · exact ⟨not_lt.mp hneg, not_lt.mp hone⟩

theorem WellFormed.upsertNode (h : WellFormed graph) (node : CausalNode) :
    WellFormed (graph.upsertNode node) := by
  have hkept : ∀ id, (graph.nodes.get id).isSome →
      ((graph.upsertNode node).nodes.get id).isSome := by
    intro id hid
    rw [CausalGraph.upsertNode, get_insert]
    split_ifs
    · rfl
    · exact hid
  exact ⟨fun edge hmem => hkept _ (h.source edge hmem),
    fun edge hmem => hkept _ (h.target edge hmem), h.unit⟩

theorem WellFormed.addEdge (h : WellFormed graph) (edge : CausalEdge) :
    WellFormed (graph.addEdge edge).1 := by
  have hunit := clampUnit_mem edge.confidence
  dsimp only [CausalGraph.addEdge]
  split_ifs with habsent hknown
  · exact h
  · -- of the edge that is there only the confidence and the evidence change
    refine ⟨forall_modifyFirst h.source fun _ he => he,
      forall_modifyFirst h.target fun _ he => he, forall_modifyFirst h.unit fun _ he => ?_⟩
    dsimp only [mergeEdge]
    split_ifs
    · exact hunit
    · exact he
  · simp only [Bool.or_eq_true, not_or, Bool.not_eq_true, Option.isNone_eq_false_iff] at habsent
    exact ⟨forall_mem_append.mpr ⟨h.source, forall_mem_singleton.mpr habsent.1⟩,
      forall_mem_append.mpr ⟨h.target, forall_mem_singleton.mpr habsent.2⟩,
      forall_mem_append.mpr ⟨h.unit, forall_mem_singleton.mpr hunit⟩⟩

theorem once_addEdge (h : (graph.edges.map joins).Nodup) (edge : CausalEdge) :
    ((graph.addEdge edge).1.edges.map joins).Nodup := by
  dsimp only [CausalGraph.addEdge]
  split_ifs with habsent hknown
  · exact h
  · show (map joins (modifyFirst _ _ _)).Nodup
    rw [joins_modifyFirst]
    · exact h
    · intro _
      rfl
  · rw [map_append, map_singleton, ← concat_eq_append, nodup_concat]
    refine ⟨fun hmem => hknown ?_, h⟩
    obtain ⟨existing, hexisting, hsame⟩ := mem_map.mp hmem
    simp only [joins, Prod.mk.injEq] at hsame
    exact any_eq_true.mpr ⟨existing, hexisting, by simp [sameRelation, hsame]⟩

theorem Built.wellFormed (h : Built graph) : WellFormed graph := by
  induction h with
  | empty =>
    constructor <;> intro _ h <;> cases h
  | upsertNode node _ ih => exact ih.upsertNode node
  | addEdge edge _ ih => exact ih.addEdge edge

theorem Built.once (h : Built graph) : (graph.edges.map joins).Nodup := by
  induction h with
  | empty => exact nodup_nil
  | upsertNode _ _ ih => exact ih
  | addEdge edge _ ih => exact once_addEdge ih edge

theorem Path.target_isSome {path : List CausalEdge} {id : String}
    (h : Path graph minConfidence start path id) (hgraph : WellFormed graph) :
    (graph.nodes.get id).isSome := by
  cases h with
  | start hstart => exact hstart
  | along _ hmem _ => exact hgraph.target _ hmem

/-- **What a built graph lists.**  Its edges join nodes, one for each way, and have a
confidence in the unit interval.  A blast radius lists each node that a path leads to once
and nothing else, with a confidence that no edge of some path to it falls below. -/
theorem built_blastRadius (graph : CausalGraph) (h : Built graph) (start : String)
    (maxDepth : Nat) (minConfidence : ℚ) :
    (WellFormed graph ∧ (graph.edges.map joins).Nodup) ∧
    ((graph.blastRadius start maxDepth minConfidence).map ImpactNode.id).Nodup ∧
    (∀ id, (∃ impact ∈ graph.blastRadius start maxDepth minConfidence, impact.id = id) ↔
      ∃ path, Reach graph start maxDepth minConfidence path id) ∧
    ∀ impact ∈ graph.blastRadius start maxDepth minConfidence,
      (graph.nodes.get impact.id).isSome ∧
      ∃ path, Reach graph start maxDepth minConfidence path impact.id ∧
        ∀ edge ∈ path, impact.confidence ≤ edge.confidence := by
  refine ⟨⟨h.wellFormed, h.once⟩, nodup_blastRadius _ _ _ _, fun id => listed_iff,
    fun impact hmem => ?_⟩
  obtain ⟨_, hany⟩ := listed_iff.mp ⟨impact, hmem, rfl⟩
  have hstart := hany.leads.start_isSome
  obtain ⟨-, hoffered, -⟩ := (best_sweep graph start maxDepth minConfidence).1 _ _
    ((mem_blastRadius hstart).mp hmem)
  obtain ⟨path, hreach, hedges⟩ := Offered.reach hstart hoffered
  exact ⟨hreach.leads.target_isSome h.wellFormed, path, hreach, hedges⟩

theorem built_blastRadius_weakFirst :
    ∃ path, Reach weakFirst "source" 2 0 path "hero" ∧ ∀ edge ∈ path, 1 / 5 ≤ edge.confidence := by
  have hbuilt : Built weakFirst := .addEdge _ (.addEdge _ (.addEdge _ (.upsertNode _
    (.upsertNode _ (.upsertNode _ .empty)))))
  refine ((built_blastRadius weakFirst hbuilt "source" 2 0).2.2.2
    ⟨"hero", 2, 1 / 5, CausalRelation.renders, []⟩ ?_).2
  rw [blastRadius_weakFirst]
  exact mem_cons_of_mem _ mem_cons_self

end CausalGraph
end Localview
