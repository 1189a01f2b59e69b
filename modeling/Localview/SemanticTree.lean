import Localview.AssocMap
import Localview.OrderedMap
import Mathlib.Data.String.Basic

/-! # Semantic trees

The tree a page is described by (`protocol/src/lib.rs`) and the map `flatten` of
`semantic/src/lib.rs` makes of it.  `nodes` lists a tree's nodes, a node before the trees
below it; where their references are unique the map reads each node by its reference
(`get_flatten`).  The type of rectangles is left open.
-/
namespace Localview
open List

abbrev ElementRef := String

/-- Where an element comes from. -/
structure SourceLocation where
  file : String
  line : Nat
  column : Option Nat
  component : Option String

/-- The component an element belongs to. -/
structure ComponentOwnership where
  framework : Option String
  (file component signal : String)

/-- An element and its children. -/
structure SemanticNode (R : Type) where
  reference : ElementRef
  (role name : Option String)
  tag : String
  rect : Option R
  interactive : Bool
  attributes : OrderedMap String String
  source : Option SourceLocation
  ownership : Option ComponentOwnership
  children : List (SemanticNode R)

namespace SemanticNode
variable {R : Type}

mutual

/-- The nodes of a tree. -/
def nodes : SemanticNode R → List (SemanticNode R)
  | ⟨reference, role, name, tag, rect, interactive, attributes, source, ownership, children⟩ =>
    ⟨reference, role, name, tag, rect, interactive, attributes, source, ownership, children⟩ ::
      nodesOf children

/-- The nodes of some trees. -/
def nodesOf : List (SemanticNode R) → List (SemanticNode R)
  | [] => []
  | child :: children => nodes child ++ nodesOf children

end

theorem nodes_eq (node : SemanticNode R) : node.nodes = node :: nodesOf node.children := by
  cases node
  rw [nodes]

theorem mem_nodes_self (node : SemanticNode R) : node ∈ node.nodes := by
  rw [nodes_eq]
  exact mem_cons_self

theorem mem_nodesOf {node : SemanticNode R} {children : List (SemanticNode R)} :
    node ∈ nodesOf children ↔ ∃ child ∈ children, node ∈ child.nodes := by
  induction children with
  | nil => simp [nodesOf]
  | cons child children ih => simp [nodesOf, ih]

/-- No two nodes of the tree have one reference. -/
def UniqueReferences (root : SemanticNode R) : Prop :=
  (root.nodes.map SemanticNode.reference).Nodup

mutual

def walk : SemanticNode R → AssocMap ElementRef (SemanticNode R) →
    AssocMap ElementRef (SemanticNode R)
  | ⟨reference, role, name, tag, rect, interactive, attributes, source, ownership, children⟩, out =>
    walkAll children (out.insert reference
      ⟨reference, role, name, tag, rect, interactive, attributes, source, ownership, children⟩)

/-- The loop of `walk` over the children. -/
def walkAll : List (SemanticNode R) → AssocMap ElementRef (SemanticNode R) →
    AssocMap ElementRef (SemanticNode R)
  | [], out => out
  | child :: children, out => walkAll children (walk child out)

end

def flatten (root : SemanticNode R) : AssocMap ElementRef (SemanticNode R) :=
  walk root AssocMap.empty

/-- Put in a node under its reference. -/
def insertNode (out : AssocMap ElementRef (SemanticNode R)) (node : SemanticNode R) :
    AssocMap ElementRef (SemanticNode R) :=
  out.insert node.reference node

mutual

/-- The walk puts in the nodes one after the other. -/
theorem walk_eq : ∀ (root : SemanticNode R) (out : AssocMap ElementRef (SemanticNode R)),
    walk root out = root.nodes.foldl insertNode out
  | ⟨reference, role, name, tag, rect, interactive, attributes, source, ownership, children⟩, out => by
    rw [walk, nodes, List.foldl_cons, walkAll_eq children]
    rfl

theorem walkAll_eq :
    ∀ (children : List (SemanticNode R)) (out : AssocMap ElementRef (SemanticNode R)),
      walkAll children out = (nodesOf children).foldl insertNode out
  | [], out => by rw [walkAll, nodesOf, List.foldl_nil]
  | child :: children, out => by
    rw [walkAll, nodesOf, List.foldl_append, walk_eq child, walkAll_eq children]

end

theorem get_foldl_insert {nodes : List (SemanticNode R)}
    {out : AssocMap ElementRef (SemanticNode R)} {reference : ElementRef} {node : SemanticNode R}
    (hunique : (nodes.map SemanticNode.reference).Nodup) :
    (nodes.foldl insertNode out).get reference = some node ↔
      node ∈ nodes ∧ node.reference = reference ∨
        reference ∉ nodes.map SemanticNode.reference ∧ out.get reference = some node := by
  induction nodes generalizing out with
  | nil => simp
  | cons first rest ih =>
    rw [map_cons, nodup_cons] at hunique
    obtain ⟨hfirst, hrest⟩ := hunique
    rw [foldl_cons, ih hrest, insertNode, AssocMap.get_insert]
    by_cases href : reference = first.reference
    · subst href
      rw [if_pos rfl]
      constructor
      · rintro (⟨hmem, heq⟩ | ⟨-, heq⟩)
        · exact absurd (heq ▸ mem_map_of_mem hmem) hfirst
        · cases heq
          exact .inl ⟨mem_cons_self, rfl⟩
      · rintro (⟨hmem, heq⟩ | ⟨hnot, -⟩)
        · rcases mem_cons.mp hmem with rfl | hmem
          · exact .inr ⟨hfirst, rfl⟩
          · exact absurd (heq ▸ mem_map_of_mem hmem) hfirst
        · exact absurd (mem_map_of_mem mem_cons_self) hnot
    · rw [if_neg href]
      simp only [mem_cons, map_cons, not_or]
      constructor
      · rintro (⟨hmem, heq⟩ | ⟨hnot, hout⟩)
        · exact .inl ⟨.inr hmem, heq⟩
        · exact .inr ⟨⟨href, hnot⟩, hout⟩
      · rintro (⟨rfl | hmem, heq⟩ | ⟨⟨-, hnot⟩, hout⟩)
        · exact absurd heq.symm href
        · exact .inl ⟨hmem, heq⟩
        · exact .inr ⟨hnot, hout⟩

/-- Where references are unique the map reads each node by its own. -/
theorem get_flatten {root node : SemanticNode R} {reference : ElementRef}
    (hunique : root.UniqueReferences) :
    (flatten root).get reference = some node ↔ node ∈ root.nodes ∧ node.reference = reference := by
  rw [flatten, walk_eq, get_foldl_insert hunique]
  constructor
  · rintro (h | ⟨-, hnone⟩)
    · exact h
    · cases hnone
  · exact .inl

end SemanticNode

/-- A console entry, counted. -/
structure ConsoleIssue where
  (level message : String)
  source : Option String
  count : Nat
  deriving DecidableEq

/-- A failed request. -/
structure NetworkIssue where
  (method url : String)
  status : Option Nat
  error : Option String
  deriving DecidableEq

structure PageSnapshot (R : Type) where
  version : Nat
  route : String
  viewport : Nat × Nat
  root : SemanticNode R
  consoleErrors : List ConsoleIssue
  failedRequests : List NetworkIssue

end Localview
