import Localview.AssocMap
import Localview.OrderedSet
import Mathlib.Data.List.Induction
import Mathlib.Data.String.Basic

/-! # Source regions and dependencies

`crates/source-graph`: an index of the regions of a page by source file and by element, and a
graph of dependencies between files.  The sets of a binding are only gone over and stand
here as lists.

Binding a region again takes the entries of its earlier binding out of both indexes, and out
of the index of elements also those that another region has put there since.  Where no such
element is given up, the indexes say of the current bindings what they are for.

The blast radius of changed files is searched breadth first, up to a depth.  The regions a
change has an impact on are those of the changed files, not those of the files that it reaches.
-/
namespace Localview.SourceGraph
open List List Function AssocMap OrderedSet

/-- A place in a source file. -/
structure SourceKey where
  file : String
  (line column : Option UInt32)

/-- A region's elements and sources. -/
structure RegionBinding where
  regionId : String
  elementRefs : List String
  sourceKeys : List SourceKey

structure SourceRegionIndex where
  regions : AssocMap String RegionBinding
  sourceToRegions : AssocMap String (OrderedSet String)
  refToRegion : AssocMap String String

def SourceRegionIndex.default : SourceRegionIndex := ⟨.empty, .empty, .empty⟩

/-! ## The index -/

def removeSourceRegion (region : String) (m : AssocMap String (OrderedSet String))
    (source : SourceKey) : AssocMap String (OrderedSet String) :=
  match m.get source.file with
  | none => m
  | some regions =>
    let regions := OrderedSet.ofList (regions.toList.filter fun r => r ≠ region)
    if regions.toList = [] then m.erase source.file else m.insert source.file regions

/-- `entry(file).or_default().insert(region)` -/
def addSourceRegion (region : String) (m : AssocMap String (OrderedSet String))
    (source : SourceKey) : AssocMap String (OrderedSet String) :=
  m.insert source.file (((m.get source.file).getD .empty).insert region)

/-- The regions that a file is mapped to. -/
def regionsAt (m : AssocMap String (OrderedSet String)) (file : String) : List String :=
  ((m.get file).getD .empty).toList

namespace SourceRegionIndex
variable (index : SourceRegionIndex)

/-- The entries of an earlier binding are taken out. -/
def withdraw (previous : RegionBinding) : SourceRegionIndex :=
  { index with
    sourceToRegions :=
      previous.sourceKeys.foldl (removeSourceRegion previous.regionId) index.sourceToRegions
    refToRegion := previous.elementRefs.foldl .erase index.refToRegion }

def upsert (binding : RegionBinding) : SourceRegionIndex :=
  let withdrawn := match index.regions.get binding.regionId with
    | some previous => index.withdraw previous
    | none => index
  { regions := index.regions.insert binding.regionId binding
    sourceToRegions :=
      binding.sourceKeys.foldl (addSourceRegion binding.regionId) withdrawn.sourceToRegions
    refToRegion := binding.elementRefs.foldl (fun m ref => m.insert ref binding.regionId)
      withdrawn.refToRegion }

def regionsForSource (file : String) : List RegionBinding :=
  (regionsAt index.sourceToRegions file).filterMap index.regions.get

def regionForRef (reference : String) : Option String := index.refToRegion.get reference

end SourceRegionIndex

/-- The index after bindings one after the other. -/
def indexOf (bindings : List RegionBinding) : SourceRegionIndex :=
  bindings.foldl .upsert .default

/-! ## What an index is for -/

def RegionBinding.hasFile (binding : RegionBinding) (file : String) : Prop :=
  ∃ source ∈ binding.sourceKeys, source.file = file

/-- The indexes agree with the bindings they are of. -/
structure Consistent (index : SourceRegionIndex) : Prop where
  keyed : ∀ region binding, index.regions.get region = some binding → binding.regionId = region
  sources : ∀ file region, region ∈ regionsAt index.sourceToRegions file ↔
    ∃ binding, index.regions.get region = some binding ∧ binding.hasFile file
  owner : ∀ reference region, index.regionForRef reference = some region →
    ∃ binding, index.regions.get region = some binding ∧ reference ∈ binding.elementRefs
  owned : ∀ reference region binding, index.regions.get region = some binding →
    reference ∈ binding.elementRefs → ∃ region, index.regionForRef reference = some region

/-- An element the region gives up is bound to no other region. -/
def GivesUpOwn (index : SourceRegionIndex) (binding : RegionBinding) : Prop :=
  ∀ previous, index.regions.get binding.regionId = some previous →
    ∀ reference ∈ previous.elementRefs, reference ∉ binding.elementRefs →
      ∀ region other, region ≠ binding.regionId → index.regions.get region = some other →
        reference ∉ other.elementRefs

section
variable {m : AssocMap String (OrderedSet String)} {r file region reference : String}
  {sources : List SourceKey} {index : SourceRegionIndex} {binding previous : RegionBinding}

theorem mem_removed {source : SourceKey} :
    r ∈ regionsAt (removeSourceRegion region m source) file ↔
      r ∈ regionsAt m file ∧ ¬ (r = region ∧ source.file = file) := by
  simp only [removeSourceRegion, regionsAt]
  cases hget : m.get source.file with
  | none =>
    refine ⟨fun h => ⟨h, ?_⟩, And.left⟩
    rintro ⟨-, rfl⟩
    rw [hget] at h
    cases h
  | some regions =>
    dsimp only
    by_cases hfile : source.file = file
    · subst hfile
      have hkept : r ∈ (OrderedSet.ofList (regions.toList.filter fun r => r ≠ region)).toList ↔
          r ∈ regions.toList ∧ r ≠ region := by
        rw [mem_ofList, mem_filter, decide_eq_true_iff]
      split_ifs with hnone
      · rw [hnone] at hkept
        simpa [hget] using hkept
      · simp [hget]
    · have hother : file ≠ source.file := Ne.symm hfile
      split_ifs
      · simp [get_erase_of_ne _ hother, hfile]
      · simp [get_insert_of_ne _ hother, hfile]

theorem mem_added {source : SourceKey} :
    r ∈ regionsAt (addSourceRegion region m source) file ↔
      r ∈ regionsAt m file ∨ r = region ∧ source.file = file := by
  simp only [addSourceRegion, regionsAt, get_insert]
  by_cases hfile : file = source.file
  · subst hfile
    simp [or_comm]
  · simp [hfile, Ne.symm hfile]

theorem mem_foldl_removed : r ∈ regionsAt (sources.foldl (removeSourceRegion region) m) file ↔
    r ∈ regionsAt m file ∧ ¬ (r = region ∧ ∃ source ∈ sources, source.file = file) := by
  induction sources generalizing m with
  | nil => simp
  | cons source sources ih =>
    rw [foldl_cons, ih, mem_removed]
    simp only [mem_cons, exists_eq_or_imp]
    rw [and_assoc, ← not_or, ← and_or_left]

theorem mem_foldl_added : r ∈ regionsAt (sources.foldl (addSourceRegion region) m) file ↔
    r ∈ regionsAt m file ∨ r = region ∧ ∃ source ∈ sources, source.file = file := by
  induction sources generalizing m with
  | nil => simp
  | cons source sources ih =>
    rw [foldl_cons, ih, mem_added]
    simp only [mem_cons, exists_eq_or_imp]
    rw [or_assoc, ← and_or_left]

theorem get_foldl_erase {refs : List String} {m : AssocMap String String} :
    (refs.foldl .erase m).get reference = if reference ∈ refs then none else m.get reference := by
  induction refs generalizing m with
  | nil => rfl
  | cons first refs ih =>
    rw [foldl_cons, ih, get_erase]
    by_cases hfirst : reference = first <;> simp [hfirst]

theorem get_foldl_insert {refs : List String} {m : AssocMap String String} :
    (refs.foldl (fun m reference => m.insert reference region) m).get reference =
      if reference ∈ refs then some region else m.get reference := by
  induction refs generalizing m with
  | nil => rfl
  | cons first refs ih =>
    rw [foldl_cons, ih, get_insert]
    by_cases hfirst : reference = first <;> simp [hfirst]

open SourceRegionIndex

/-- The files after an upsert: a region's are those of its new binding. -/
theorem mem_sources_upsert (h : Consistent index) :
    r ∈ regionsAt (index.upsert binding).sourceToRegions file ↔
      (r ≠ binding.regionId ∧ r ∈ regionsAt index.sourceToRegions file) ∨
        r = binding.regionId ∧ binding.hasFile file := by
  rw [upsert, mem_foldl_added]
  refine or_congr_left ?_
  cases hget : index.regions.get binding.regionId with
  | none =>
    refine ⟨fun hmem => ⟨?_, hmem⟩, And.right⟩
    rintro rfl
    obtain ⟨_, hsome, -⟩ := (h.sources file _).mp hmem
    cases hget.symm.trans hsome
  | some previous =>
    simp only [withdraw, mem_foldl_removed, h.keyed _ _ hget]
    refine ⟨fun ⟨hmem, hnot⟩ => ⟨?_, hmem⟩, fun ⟨hne, hmem⟩ => ⟨hmem, fun hr => hne hr.1⟩⟩
    rintro rfl
    obtain ⟨_, hsome, hfile⟩ := (h.sources file _).mp hmem
    cases hget.symm.trans hsome
    exact hnot ⟨rfl, hfile⟩

/-- The owner after an upsert: the region, or the one before unless it was withdrawn. -/
theorem regionForRef_upsert : (index.upsert binding).regionForRef reference =
    if reference ∈ binding.elementRefs then some binding.regionId
    else if ∃ previous, index.regions.get binding.regionId = some previous ∧
      reference ∈ previous.elementRefs then none
    else index.regionForRef reference := by
  rw [upsert, regionForRef, get_foldl_insert]
  congr 1
  cases index.regions.get binding.regionId with
  | none => simp [regionForRef]
  | some previous =>
    simp only [withdraw, get_foldl_erase, Option.some.injEq, exists_eq_left',
      regionForRef]

theorem Consistent.upsert (h : Consistent index) (hown : GivesUpOwn index binding) :
    Consistent (index.upsert binding) := by
  have hregions : ∀ region, (index.upsert binding).regions.get region =
      if region = binding.regionId then some binding else index.regions.get region :=
    fun region => get_insert _
  constructor
  · intro region b hb
    rw [hregions] at hb
    split_ifs at hb with hregion
    · cases hb
      exact hregion.symm
    · exact h.keyed region b hb
  · intro file region
    rw [mem_sources_upsert h, hregions]
    split_ifs with hregion
    · simp [hregion]
    · simp [hregion, h.sources]
  · intro reference region hget
    rw [regionForRef_upsert] at hget
    rw [hregions]
    split_ifs at hget with hmem hprevious
    · cases hget
      exact ⟨binding, if_pos rfl, hmem⟩
    · obtain ⟨b, hb, hmem'⟩ := h.owner reference region hget
      refine ⟨b, ?_, hmem'⟩
      rw [if_neg ?_, hb]
      rintro rfl
      exact hprevious ⟨b, hb, hmem'⟩
  · intro reference region b hb hmem'
    rw [regionForRef_upsert]
    rw [hregions] at hb
    split_ifs with hmem hprevious
    · exact ⟨_, rfl⟩
    · obtain ⟨previous, hget, hgiven⟩ := hprevious
      split_ifs at hb with hregion
      · cases hb
        exact absurd hmem' hmem
      · exact absurd hmem' (hown previous hget reference hgiven hmem region b hregion hb)
    · split_ifs at hb with hregion
      · cases hb
        exact absurd hmem' hmem
      · exact h.owned reference region b hb hmem'

end

theorem indexOf_snoc (bindings : List RegionBinding) (binding : RegionBinding) :
    indexOf (bindings ++ [binding]) = (indexOf bindings).upsert binding := by
  rw [indexOf, foldl_append]
  rfl

theorem consistent_default : Consistent .default :=
  ⟨(fun _ _ h => nomatch h), (fun _ _ => ⟨(fun h => nomatch h), fun ⟨_, h, _⟩ => nomatch h⟩),
    (fun _ _ h => nomatch h), fun _ _ _ h => nomatch h⟩

/-- **Consistent indexes.**  Where no binding gives up an element that another region has,
the indexes say of the current bindings what they are for. -/
theorem source_region_index_consistent (bindings : List RegionBinding)
    (hown : ∀ earlier binding later, bindings = earlier ++ binding :: later →
      GivesUpOwn (indexOf earlier) binding) :
    (∀ file region, region ∈ regionsAt (indexOf bindings).sourceToRegions file ↔
      ∃ binding, (indexOf bindings).regions.get region = some binding ∧ binding.hasFile file) ∧
    ∀ reference,
      (∀ region, (indexOf bindings).regionForRef reference = some region → ∃ binding,
        (indexOf bindings).regions.get region = some binding ∧ reference ∈ binding.elementRefs) ∧
      ((∃ region, (indexOf bindings).regionForRef reference = some region) ↔ ∃ region binding,
        (indexOf bindings).regions.get region = some binding ∧
          reference ∈ binding.elementRefs) := by
  have hconsistent : Consistent (indexOf bindings) := by
    induction bindings using List.reverseRec with
    | nil => exact consistent_default
    | append_singleton bindings binding ih =>
      rw [indexOf_snoc]
      refine Consistent.upsert (ih fun earlier b later hsplit => ?_) (hown bindings binding [] rfl)
      exact hown earlier b (later ++ [binding]) (by rw [hsplit]; simp)
  refine ⟨hconsistent.sources, fun reference => ⟨hconsistent.owner reference, ?_, ?_⟩⟩
  · rintro ⟨region, hregion⟩
    exact ⟨region, hconsistent.owner reference region hregion⟩
  · rintro ⟨region, binding, hget, hmem⟩
    exact hconsistent.owned reference region binding hget hmem

/-- A region with one element, in a file of its own. -/
def sampleBinding (region reference : String) : RegionBinding :=
  ⟨region, [reference], [⟨region ++ ".tsx", some 1, none⟩]⟩

/-- A region that is bound again gives up an element of its own. -/
theorem source_region_index_consistent_shared :
    ∃ region, (indexOf [sampleBinding "a" "e", sampleBinding "a" "f",
      sampleBinding "b" "e"]).regionForRef "e" = some region := by
  have hall := source_region_index_consistent
    [sampleBinding "a" "e", sampleBinding "a" "f", sampleBinding "b" "e"] ?_
  · exact (hall.2 "e").2.mpr ⟨"b", sampleBinding "b" "e", rfl, .head _⟩
  rintro (_ | ⟨x, _ | ⟨y, _ | ⟨z, _⟩⟩⟩) binding later hsplit previous hget
  · cases hget
  · obtain ⟨rfl, hrest⟩ := List.cons.inj hsplit
    obtain ⟨rfl, -⟩ := List.cons.inj hrest
    intro reference _ _ region other hne hother
    change region ≠ "a" at hne
    rw [show (indexOf [sampleBinding "a" "e"]).regions =
      AssocMap.empty.insert "a" (sampleBinding "a" "e") from rfl, get_insert, if_neg hne] at hother
    cases hother
  · obtain ⟨rfl, hrest⟩ := List.cons.inj hsplit
    obtain ⟨heq, hrest⟩ := List.cons.inj hrest
    obtain ⟨rfl, -⟩ := List.cons.inj hrest
    rw [← heq] at hget
    cases hget
  · simp at hsplit

/-- A region that takes an element over is passed over once the other gives it up. -/
theorem region_passed_over : ∃ bindings reference region binding,
    (indexOf bindings).regions.get region = some binding ∧ reference ∈ binding.elementRefs ∧
      (indexOf bindings).regionForRef reference = none :=
  ⟨[sampleBinding "a" "e", sampleBinding "b" "e", sampleBinding "a" "f"], "e", "b",
    sampleBinding "b" "e", rfl, .head _, rfl⟩

/-! ## Dependencies -/

/-- Why one source depends on another. -/
inductive DependencyKind
  | importing | cssToken | typography | asset | data | route | runtime
  deriving DecidableEq

/-- One source depends on another. -/
structure DependencyEdge where
  (fromNode toNode : String)
  kind : DependencyKind

structure DependencyGraph where
  edges : List DependencyEdge

/-- The variables of the loop of `blast_radius`. -/
structure Sweep where
  impacted : OrderedSet String
  queue : List (String × Nat)

/-- `if impacted.insert(edge.to.clone()) { queue.push_back(..) }` -/
def impact (depth : Nat) (s : Sweep) (edge : DependencyEdge) : Sweep :=
  if s.impacted.contains edge.toNode then s
  else ⟨s.impacted.insert edge.toNode, s.queue ++ [(edge.toNode, depth + 1)]⟩

namespace DependencyGraph
variable (graph : DependencyGraph) (kinds : List DependencyKind) (maxDepth : Nat)
  (roots : OrderedSet String)

def edgesFrom (current : String) : List DependencyEdge :=
  graph.edges.filter fun edge => edge.fromNode = current ∧ (kinds = [] ∨ edge.kind ∈ kinds)

/-- One round of `while let Some((current, depth)) = queue.pop_front()` -/
def turn (s : Sweep) : Sweep :=
  match s.queue with
  | [] => s
  | (current, depth) :: rest =>
    if maxDepth ≤ depth then ⟨s.impacted, rest⟩
    else (graph.edgesFrom kinds current).foldl (impact depth) ⟨s.impacted, rest⟩

def sweepFrom : Sweep := ⟨roots, roots.toList.map (·, 0)⟩

/-- The loop has a round for each root and for an edge to each other node at most. -/
def blastRadius : OrderedSet String :=
  ((graph.turn kinds maxDepth)^[roots.toList.length + graph.edges.length]
    (sweepFrom roots)).impacted

/-- The node is so many edges from a root. -/
inductive Leads : Nat → String → Prop
  | root {node : String} : node ∈ roots.toList → Leads 0 node
  | edge {n : Nat} {node : String} {edge : DependencyEdge} : Leads n node →
      edge ∈ graph.edgesFrom kinds node → Leads (n + 1) edge.toNode

/-- What holds of the loop, of the entries gone over and those in the queue: the queue is by
depth, and no entry is more than one deeper than what the queue begins with. -/
structure Swept (done : List (String × Nat)) (s : Sweep) : Prop where
  impacted : ∀ node, node ∈ s.impacted.toList ↔ node ∈ (done ++ s.queue).map Prod.fst
  once : ((done ++ s.queue).map Prod.fst).Nodup
  leads : ∀ entry ∈ done ++ s.queue,
    entry.2 ≤ maxDepth ∧ graph.Leads kinds roots entry.2 entry.1
  rooted : ∀ root ∈ roots.toList, (root, 0) ∈ done ++ s.queue
  sorted : s.queue.Pairwise fun a b => a.2 ≤ b.2
  near : ∀ entry ∈ done ++ s.queue, ∀ waiting ∈ s.queue, entry.2 ≤ waiting.2 + 1
  onward : ∀ entry ∈ done, entry.2 < maxDepth → ∀ edge ∈ graph.edgesFrom kinds entry.1,
    ∃ depth ≤ entry.2 + 1, (edge.toNode, depth) ∈ done ++ s.queue

variable {graph kinds maxDepth roots}

/-- What the edges from a node put into the queue: each node that was not impacted, once. -/
theorem foldl_impact (edges : List DependencyEdge) (depth : Nat) (s : Sweep) :
    ∃ fresh : List String, edges.foldl (impact depth) s =
        ⟨s.impacted.extend fresh, s.queue ++ fresh.map (·, depth + 1)⟩ ∧
      fresh.Nodup ∧
      (∀ node ∈ fresh, node ∉ s.impacted.toList ∧ ∃ edge ∈ edges, edge.toNode = node) ∧
      ∀ edge ∈ edges, edge.toNode ∈ s.impacted.toList ∨ edge.toNode ∈ fresh := by
  induction edges generalizing s with
  | nil => exact ⟨[], by simp [OrderedSet.extend], .nil, nofun, nofun⟩
  | cons edge edges ih =>
    rw [foldl_cons, impact]
    split_ifs with hknown
    · obtain ⟨fresh, heq, hnodup, hfresh, hall⟩ := ih s
      refine ⟨fresh, heq, hnodup, fun node hnode => ?_, fun other hother => ?_⟩
      · obtain ⟨hnew, other, hother, heq⟩ := hfresh node hnode
        exact ⟨hnew, other, .tail _ hother, heq⟩
      · rcases mem_cons.mp hother with rfl | hother
        · exact .inl (OrderedSet.contains_iff.mp hknown)
        · exact hall other hother
    · obtain ⟨fresh, heq, hnodup, hfresh, hall⟩ := ih ⟨s.impacted.insert edge.toNode, _⟩
      simp only [mem_insert, not_or] at hfresh hall
      refine ⟨edge.toNode :: fresh, ?_, nodup_cons.mpr ⟨fun h => (hfresh _ h).1.1 rfl, hnodup⟩,
        fun node hnode => ?_, fun other hother => ?_⟩
      · rw [heq, append_assoc]
        rfl
      · rcases mem_cons.mp hnode with rfl | hnode
        · exact ⟨fun h => hknown (OrderedSet.contains_iff.mpr h), edge, .head _, rfl⟩
        · obtain ⟨hnew, other, hother, heq⟩ := hfresh node hnode
          exact ⟨hnew.2, other, .tail _ hother, heq⟩
      · rcases mem_cons.mp hother with rfl | hother
        · exact .inr (.head _)
        · rcases hall other hother with (h | h) | h
          · exact .inr (h ▸ .head _)
          · exact .inl h
          · exact .inr (.tail _ h)

variable {done rest : List (String × Nat)} {node : String} {depth : Nat}
  {impacted : OrderedSet String}

/-- An entry is gone over, and the nodes that its edges lead to are put at the end. -/
theorem Swept.goOver (h : graph.Swept kinds maxDepth roots done ⟨impacted, (node, depth) :: rest⟩)
    {fresh : List String} (hnodup : fresh.Nodup)
    (hfresh : ∀ v ∈ fresh, v ∉ impacted.toList ∧ depth < maxDepth ∧
      ∃ edge ∈ graph.edgesFrom kinds node, edge.toNode = v)
    (hall : depth < maxDepth → ∀ edge ∈ graph.edgesFrom kinds node,
      edge.toNode ∈ impacted.toList ∨ edge.toNode ∈ fresh) :
    graph.Swept kinds maxDepth roots (done ++ [(node, depth)])
      ⟨impacted.extend fresh, rest ++ fresh.map (·, depth + 1)⟩ := by
  have hfound : done ++ [(node, depth)] ++ (rest ++ fresh.map (·, depth + 1)) =
      (done ++ (node, depth) :: rest) ++ fresh.map (·, depth + 1) := by simp
  have hput : (fresh.map (·, depth + 1)).map Prod.fst = fresh := by simp [comp_def]
  have hlater := pairwise_cons.mp h.sorted
  have hdepth : ∀ entry ∈ done ++ (node, depth) :: rest, entry.2 ≤ depth + 1 :=
    fun entry hentry => h.near entry hentry _ (.head _)
  constructor <;> simp only [hfound]
  · intro v
    rw [map_append, hput, mem_append, mem_extend, h.impacted]
  · rw [map_append, hput, nodup_append]
    refine ⟨h.once, hnodup, ?_⟩
    rintro v hv _ hnew rfl
    exact (hfresh v hnew).1 ((h.impacted v).mpr hv)
  · intro entry hentry
    rcases mem_append.mp hentry with hentry | hentry
    · exact h.leads entry hentry
    · obtain ⟨v, hv, rfl⟩ := mem_map.mp hentry
      obtain ⟨-, hlt, edge, hedge, rfl⟩ := hfresh v hv
      exact ⟨hlt, .edge (h.leads (node, depth) (by simp)).2 hedge⟩
  · exact fun root hroot => mem_append_left _ (h.rooted root hroot)
  · refine pairwise_append.mpr ⟨hlater.2, ?_, fun a ha b hb => ?_⟩
    · exact pairwise_map.mpr (pairwise_of_forall fun _ _ => Nat.le_refl _)
    · obtain ⟨v, -, rfl⟩ := mem_map.mp hb
      exact hdepth a (by simp [ha])
  · intro entry hentry waiting hwaiting
    have hle : entry.2 ≤ depth + 1 := by
      rcases mem_append.mp hentry with hentry | hentry
      · exact hdepth entry hentry
      · obtain ⟨v, -, rfl⟩ := mem_map.mp hentry
        exact Nat.le_refl _
    have hge : depth ≤ waiting.2 := by
      rcases mem_append.mp hwaiting with hwaiting | hwaiting
      · exact hlater.1 waiting hwaiting
      · obtain ⟨v, -, rfl⟩ := mem_map.mp hwaiting
        exact Nat.le_succ _
    omega
  · intro entry hentry hlt edge hedge
    rcases mem_append.mp hentry with hentry | hentry
    · obtain ⟨d, hd, hmem⟩ := h.onward entry hentry hlt edge hedge
      exact ⟨d, hd, mem_append_left _ hmem⟩
    · rw [mem_singleton.mp hentry] at hlt hedge ⊢
      rcases hall hlt edge hedge with hknown | hnew
      · obtain ⟨⟨_, d⟩, hmem, rfl⟩ := mem_map.mp ((h.impacted _).mp hknown)
        exact ⟨d, hdepth _ hmem, mem_append_left _ hmem⟩
      · exact ⟨depth + 1, Nat.le_refl _, mem_append_right _ (mem_map.mpr ⟨_, hnew, rfl⟩)⟩

theorem Swept.turn (h : graph.Swept kinds maxDepth roots done ⟨impacted, (node, depth) :: rest⟩) :
    graph.Swept kinds maxDepth roots (done ++ [(node, depth)])
      (graph.turn kinds maxDepth ⟨impacted, (node, depth) :: rest⟩) := by
  simp only [DependencyGraph.turn]
  split_ifs with hdeep
  · have hnone := h.goOver .nil nofun fun hlt => absurd hlt (Nat.not_lt.mpr hdeep)
    rwa [map_nil, append_nil] at hnone
  · obtain ⟨fresh, heq, hnodup, hfresh, hall⟩ :=
      foldl_impact (graph.edgesFrom kinds node) depth ⟨impacted, rest⟩
    rw [heq]
    refine h.goOver hnodup (fun v hv => ?_) fun _ => hall
    exact ⟨(hfresh v hv).1, Nat.not_le.mp hdeep, (hfresh v hv).2⟩

theorem swept_start : graph.Swept kinds maxDepth roots [] (sweepFrom roots) where
  impacted node := by simp [sweepFrom]
  once := by
    have hnodup : roots.toList.Nodup := roots.sorted_toList.imp ne_of_lt
    simpa [sweepFrom, comp_def] using hnodup
  leads entry hentry := by
    obtain ⟨root, hroot, rfl⟩ := mem_map.mp hentry
    exact ⟨Nat.zero_le _, .root hroot⟩
  rooted root hroot := mem_map.mpr ⟨root, hroot, rfl⟩
  sorted := pairwise_map.mpr (pairwise_of_forall fun _ _ => Nat.le_refl _)
  near entry hentry _ _ := by
    obtain ⟨root, hroot, rfl⟩ := mem_map.mp hentry
    exact Nat.zero_le _
  onward _ hentry := nomatch hentry

variable (graph kinds maxDepth roots) in
/-- After some rounds, as many entries are gone over or none is left. -/
theorem swept_iterate (n : Nat) : ∃ done,
    graph.Swept kinds maxDepth roots done ((graph.turn kinds maxDepth)^[n] (sweepFrom roots)) ∧
      (done.length = n ∨ ((graph.turn kinds maxDepth)^[n] (sweepFrom roots)).queue = []) := by
  induction n with
  | zero => exact ⟨[], swept_start, .inl rfl⟩
  | succ n ih =>
    rw [iterate_succ_apply']
    obtain ⟨done, hswept, hlength⟩ := ih
    generalize (graph.turn kinds maxDepth)^[n] (sweepFrom roots) = s at hswept hlength
    obtain ⟨impacted, _ | ⟨⟨node, depth⟩, rest⟩⟩ := s
    · exact ⟨done, hswept, .inr rfl⟩
    · refine ⟨_, hswept.turn, .inl ?_⟩
      rw [length_append, length_singleton, hlength.resolve_right (cons_ne_nil _ _)]

theorem Leads.mem_nodes {n : Nat} (h : graph.Leads kinds roots n node) :
    node ∈ roots.toList ++ graph.edges.map DependencyEdge.toNode := by
  cases h with
  | root hroot => exact mem_append_left _ hroot
  | edge _ hedge =>
    exact mem_append_right _ (mem_map.mpr ⟨_, (mem_filter.mp hedge).1, rfl⟩)

/-- The rounds of `blastRadius` leave nothing in the queue. -/
theorem queue_rounds {s : Sweep} (hs : (graph.turn kinds maxDepth)^[roots.toList.length +
    graph.edges.length] (sweepFrom roots) = s) :
    s.queue = [] ∧ ∃ done, graph.Swept kinds maxDepth roots done s := by
  obtain ⟨done, h, hend⟩ := swept_iterate graph kinds maxDepth roots
    (roots.toList.length + graph.edges.length)
  rw [hs] at h hend
  refine ⟨hend.elim (fun hlength => ?_) id, done, h⟩
  have hnodes : (done ++ s.queue).map Prod.fst ⊆
      roots.toList ++ graph.edges.map DependencyEdge.toNode := by
    intro v hv
    obtain ⟨entry, hentry, rfl⟩ := mem_map.mp hv
    exact (h.leads entry hentry).2.mem_nodes
  have hle := h.once.length_le_of_subset hnodes
  simp only [length_map, length_append] at hle
  have hnone : s.queue.length = 0 := by omega
  exact length_eq_zero_iff.mp hnone

/-- **The blast radius** is what is within so many edges of a root. -/
theorem mem_blastRadius : node ∈ (graph.blastRadius kinds maxDepth roots).toList ↔
    ∃ n ≤ maxDepth, graph.Leads kinds roots n node := by
  rw [blastRadius]
  generalize hs : (graph.turn kinds maxDepth)^[_] (sweepFrom roots) = s
  obtain ⟨hqueue, done, h⟩ := queue_rounds hs
  rw [h.impacted, hqueue, append_nil]
  obtain ⟨-, -, hleads, hrooted, -, -, honward⟩ := h
  rw [hqueue, append_nil] at hleads hrooted honward
  constructor
  · intro hnode
    obtain ⟨⟨_, d⟩, hmem, rfl⟩ := mem_map.mp hnode
    exact ⟨d, hleads _ hmem⟩
  · rintro ⟨n, hn, hlead⟩
    have hfound : ∃ d ≤ n, (node, d) ∈ done := by
      induction hlead with
      | root hroot => exact ⟨0, Nat.le_refl _, hrooted _ hroot⟩
      | edge hlead hedge ih =>
        obtain ⟨d, hd, hmem⟩ := ih (by omega)
        obtain ⟨d', hd', hmem'⟩ := honward _ hmem (by simp only; omega) _ hedge
        exact ⟨d', by simp only at hd'; omega, hmem'⟩
    obtain ⟨d, -, hmem⟩ := hfound
    exact mem_map.mpr ⟨_, hmem, rfl⟩

end DependencyGraph

structure ChangeImpact where
  (changedSources impactedRegions impactedDependencies : OrderedSet String)

def changeImpact (index : SourceRegionIndex) (graph : DependencyGraph)
    (changedSources : OrderedSet String) (maxDepth : Nat) : ChangeImpact where
  changedSources
  impactedRegions := .ofList
    ((changedSources.toList.flatMap index.regionsForSource).map RegionBinding.regionId)
  impactedDependencies := graph.blastRadius [] maxDepth changedSources

/-- **The impact of a change** is all that is within so many edges of a changed file, and the
regions that are bound to a changed file. -/
theorem change_impact_exact (index : SourceRegionIndex) (hindex : Consistent index)
    (graph : DependencyGraph) (changed : OrderedSet String) (maxDepth : Nat) :
    (∀ node, node ∈ (changeImpact index graph changed maxDepth).impactedDependencies.toList ↔
      ∃ n ≤ maxDepth, graph.Leads [] changed n node) ∧
    ∀ region, region ∈ (changeImpact index graph changed maxDepth).impactedRegions.toList ↔
      ∃ file ∈ changed.toList, ∃ binding,
        index.regions.get region = some binding ∧ binding.hasFile file := by
  refine ⟨fun node => DependencyGraph.mem_blastRadius, fun region => ?_⟩
  simp only [changeImpact, OrderedSet.mem_ofList, mem_map, mem_flatMap,
    SourceRegionIndex.regionsForSource, mem_filterMap]
  constructor
  · rintro ⟨binding, ⟨file, hfile, r, hr, hget⟩, rfl⟩
    obtain ⟨_, hsome, hbound⟩ := (hindex.sources file r).mp hr
    cases hget.symm.trans hsome
    rw [hindex.keyed r binding hget]
    exact ⟨file, hfile, binding, hget, hbound⟩
  · rintro ⟨file, hfile, binding, hget, hbound⟩
    exact ⟨binding, ⟨file, hfile, region, (hindex.sources file region).mpr ⟨binding, hget, hbound⟩,
      hget⟩, hindex.keyed region binding hget⟩

/-- A token file, a component that depends on it, and a page that imports the component. -/
def tokenGraph : DependencyGraph :=
  ⟨[⟨"tokens.css", "checkout.tsx", .cssToken⟩, ⟨"checkout.tsx", "page.tsx", .importing⟩]⟩

theorem change_impact_exact_checkout :
    let impact := changeImpact (indexOf [sampleBinding "checkout" "e"]) tokenGraph
      (.ofList ["checkout.tsx"]) 1
    "page.tsx" ∈ impact.impactedDependencies.toList ∧
      "checkout" ∈ impact.impactedRegions.toList := by
  have hroot : "checkout.tsx" ∈ (OrderedSet.ofList ["checkout.tsx"]).toList :=
    OrderedSet.mem_ofList.mpr (.head _)
  have h := change_impact_exact (indexOf [sampleBinding "checkout" "e"])
    (consistent_default.upsert fun _ h => nomatch h) tokenGraph (.ofList ["checkout.tsx"]) 1
  refine ⟨(h.1 _).mpr ⟨1, Nat.le_refl _, ?_⟩, (h.2 _).mpr ⟨_, hroot, _, rfl, _, .head _, rfl⟩⟩
  exact .edge (.root hroot) (mem_filter.mpr ⟨.tail _ (.head _), rfl⟩)

/-- The region of a file that depends on the changed one is not impacted. -/
theorem region_not_impacted : ∃ index graph changed maxDepth region file binding,
    Consistent index ∧ index.regions.get region = some binding ∧ binding.hasFile file ∧
      file ∈ (changeImpact index graph changed maxDepth).impactedDependencies.toList ∧
      region ∉ (changeImpact index graph changed maxDepth).impactedRegions.toList :=
  ⟨indexOf [sampleBinding "checkout" "e"], tokenGraph, .ofList ["tokens.css"], 1, "checkout",
    "checkout.tsx", sampleBinding "checkout" "e", consistent_default.upsert (fun _ h => nomatch h),
    rfl, ⟨_, .head _, rfl⟩, by decide +kernel, by decide +kernel⟩

end Localview.SourceGraph
