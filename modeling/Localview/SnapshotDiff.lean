import Localview.DistinctSort
import Localview.SemanticTree

/-! # The difference of two snapshots

`snapshot_diff` of `semantic/src/lib.rs`: what changed between two snapshots of a page, by
the references of their nodes.

Two short cuts decide what is found.  A node counts as changed where the text
`semantic_signature` makes of it differs, so a change that leaves the text alike is missed.
And an entry of the console or the network counts as new where it does not occur in the
earlier list at all, so more of what was there is missed.  The difference is exact just when
neither happens (`snapshotDiff_exact_iff`).
-/
namespace Localview
open DistinctSort List SemanticNode

/-- An element that moved. -/
structure LayoutChange (R : Type) where
  reference : ElementRef
  (before after : Option R)

/-- What changed between two snapshots. -/
structure StateDiff (R : Type) where
  (fromVersion toVersion : Nat)
  (changedRefs removedRefs : List ElementRef)
  routeChanged : Bool
  layoutChanges : List (LayoutChange R)
  consoleDelta : List ConsoleIssue
  networkDelta : List NetworkIssue

/-- The order a hash set lists its members in: any order, each member once. -/
structure HashOrder where
  list : List ElementRef → List ElementRef
  perm : ∀ refs, (list refs).Perm refs

namespace SnapshotDiff

/-- The characters of a lower-case hexadecimal numeral. -/
def hexDigits (n : Nat) : List Char := (Nat.toDigits 16 n)

/-- A character of a quoted string in `Debug` form, where `unprintable` says which
characters the tables of the standard library do not print as they are. -/
def escapeDebug (unprintable : Char → Bool) (c : Char) : List Char :=
  if c = Char.ofNat 0 then ['\\', '0']
  else if c = '\t' then ['\\', 't']
  else if c = '\r' then ['\\', 'r']
  else if c = '\n' then ['\\', 'n']
  else if c = '\\' then ['\\', '\\']
  else if c = '\x22' then ['\\', '\x22']
  else if unprintable c then '\\' :: 'u' :: '\x7b' :: hexDigits c.toNat ++ ['\x7d']
  else [c]

/-- An optional text as `{:?}` shows it. -/
def debugText (unprintable : Char → Bool) : Option String → List Char
  | none => "None".toList
  | some s => "Some(\"".toList ++ s.toList.flatMap (escapeDebug unprintable) ++ "\")".toList

/-- One attribute, `{k}={v}`. -/
def attributeText (entry : String × String) : List Char :=
  entry.1.toList ++ '=' :: entry.2.toList

/-- The text that stands for what a node is. -/
def semanticSignature {R : Type} (unprintable : Char → Bool) (node : SemanticNode R) : List Char :=
  node.tag.toList ++ '|' :: (debugText unprintable node.role ++
    '|' :: (debugText unprintable node.name ++ '|' :: ((toString node.interactive).toList ++
      '|' :: [';'].intercalate (node.attributes.entries.map attributeText))))

/-! ## The difference -/

/-- What is new, each time it stands there. -/
def multisetDelta {α : Type} [DecidableEq α] (before after : List α) : List α :=
  after.filter fun v => !before.contains v

section
variable {R : Type} [BEq R]

/-- What the loop over the common references finds of one of them: whether the node changed,
and how its rectangle did. -/
def commonChange (unprintable : Char → Bool) (reference : ElementRef) (a b : SemanticNode R) :
    Bool × Option (LayoutChange R) :=
  (decide (semanticSignature unprintable a ≠ semanticSignature unprintable b),
    if a.rect != b.rect then some ⟨reference, a.rect, b.rect⟩ else none)

/-- The references of a flattened tree. -/
def keys (nodes : AssocMap ElementRef (SemanticNode R)) : List ElementRef :=
  nodes.entries.map Prod.fst

/-- References of one tree only. -/
def difference (order : HashOrder) (nodes other : AssocMap ElementRef (SemanticNode R)) :
    List ElementRef :=
  order.list ((keys nodes).filter fun reference => !(keys other).contains reference)

/-- References of both trees. -/
def intersection (order : HashOrder) (nodes other : AssocMap ElementRef (SemanticNode R)) :
    List ElementRef :=
  order.list ((keys nodes).filter fun reference => (keys other).contains reference)

/-- The loop over the common references. -/
def commonChanges (order : HashOrder) (unprintable : Char → Bool)
    (old new : AssocMap ElementRef (SemanticNode R)) :
    List (ElementRef × Bool × Option (LayoutChange R)) :=
  (intersection order old new).filterMap fun reference =>
    match old.get reference, new.get reference with
    | some a, some b => some (reference, commonChange unprintable reference a b)
    | _, _ => none

/-- What changed from one snapshot to the next. -/
def snapshotDiff (order : HashOrder) (unprintable : Char → Bool)
    (before after : PageSnapshot R) : StateDiff R :=
  let old := before.root.flatten
  let new := after.root.flatten
  let changes := commonChanges order unprintable old new
  let changed := (changes.filter fun change => change.2.1).map Prod.fst
  { fromVersion := before.version, toVersion := after.version
    changedRefs := sortDedup (changed ++ difference order new old)
    removedRefs := difference order old new, routeChanged := decide (before.route ≠ after.route)
    layoutChanges := changes.filterMap fun change => change.2.2
    consoleDelta := multisetDelta before.consoleErrors after.consoleErrors
    networkDelta := multisetDelta before.failedRequests after.failedRequests }

end

/-! ## What a difference is to say -/

section
variable {R : Type} [BEq R]

/-- The tree has a node of the reference. -/
def Has (root : SemanticNode R) (reference : ElementRef) : Prop :=
  ∃ node ∈ root.nodes, node.reference = reference

/-- The nodes agree in all that counts as a change. -/
structure SameSemantics (a b : SemanticNode R) : Prop where
  tag : a.tag = b.tag
  role : a.role = b.role
  name : a.name = b.name
  interactive : a.interactive = b.interactive
  attributes : a.attributes = b.attributes

/-- The nodes of one reference in two trees. -/
structure Common (before after a b : SemanticNode R) (reference : ElementRef) : Prop where
  before_mem : a ∈ before.nodes
  after_mem : b ∈ after.nodes
  before_reference : a.reference = reference
  after_reference : b.reference = reference

/-- The difference misses nothing and adds nothing. -/
structure DiffExact (before after : PageSnapshot R) (diff : StateDiff R) : Prop where
  changed_sorted : diff.changedRefs.Pairwise (· < ·)
  changed : ∀ reference, reference ∈ diff.changedRefs ↔
    Has after.root reference ∧ ¬ Has before.root reference ∨
      ∃ a b, Common before.root after.root a b reference ∧ ¬ SameSemantics a b
  removed_once : diff.removedRefs.Nodup
  removed : ∀ reference, reference ∈ diff.removedRefs ↔
    Has before.root reference ∧ ¬ Has after.root reference
  layout_once : (diff.layoutChanges.map LayoutChange.reference).Nodup
  layout : ∀ change, change ∈ diff.layoutChanges ↔
    ∃ a b, Common before.root after.root a b change.reference ∧ (a.rect != b.rect) = true ∧
      change = ⟨change.reference, a.rect, b.rect⟩
  console : ∀ issue, diff.consoleDelta.count issue =
    after.consoleErrors.count issue - before.consoleErrors.count issue
  network : ∀ issue, diff.networkDelta.count issue =
    after.failedRequests.count issue - before.failedRequests.count issue

/-- The texts of common nodes tell them apart. -/
def SignaturesTell (unprintable : Char → Bool) (before after : SemanticNode R) : Prop :=
  ∀ a b reference, Common before after a b reference →
    semanticSignature unprintable a = semanticSignature unprintable b → SameSemantics a b

/-- No entry that was there comes more often now. -/
def NoMore {α : Type} [DecidableEq α] (before after : List α) : Prop :=
  ∀ v ∈ before, after.count v ≤ before.count v

end

section
variable {R : Type} [BEq R] {order : HashOrder} {unprintable : Char → Bool}
  {before after : PageSnapshot R} {root a b : SemanticNode R} {reference : ElementRef}

theorem count_multisetDelta {α : Type} [DecidableEq α] {before after : List α} {v : α} :
    (multisetDelta before after).count v = if v ∈ before then 0 else after.count v := by
  by_cases hv : v ∈ before
  · rw [if_pos hv, count_eq_zero]
    intro hmem
    have hnot := (mem_filter.mp hmem).2
    rw [contains_iff_mem.mpr hv] at hnot
    cases hnot
  · rw [if_neg hv, multisetDelta, count_filter]
    simpa using hv

/-- The delta counts rightly just when no entry that was there comes more often. -/
theorem multisetDelta_exact_iff {α : Type} [DecidableEq α] {before after : List α} :
    (∀ v, (multisetDelta before after).count v = after.count v - before.count v) ↔
      NoMore before after := by
  constructor
  · intro h v hv
    have hcount := h v
    rw [count_multisetDelta, if_pos hv] at hcount
    omega
  · intro h v
    rw [count_multisetDelta]
    by_cases hv : v ∈ before
    · have hle := h v hv
      rw [if_pos hv]
      omega
    · rw [if_neg hv, count_eq_zero.mpr hv, Nat.sub_zero]

omit [BEq R] in
theorem semanticSignature_congr (h : SameSemantics a b) :
    semanticSignature unprintable a = semanticSignature unprintable b := by
  rw [semanticSignature, semanticSignature, h.tag, h.role, h.name, h.interactive, h.attributes]

omit [BEq R] in
theorem mem_keys_flatten (hunique : root.UniqueReferences) :
    reference ∈ keys root.flatten ↔ Has root reference := by
  rw [keys, ← AssocMap.get_isSome_iff, Option.isSome_iff_exists]
  constructor
  · rintro ⟨node, hnode⟩
    exact ⟨node, (get_flatten hunique).mp hnode⟩
  · rintro ⟨node, hnode⟩
    exact ⟨node, (get_flatten hunique).mpr hnode⟩

omit [BEq R] in
theorem nodup_keys (nodes : AssocMap ElementRef (SemanticNode R)) : (keys nodes).Nodup :=
  nodes.nodup

omit [BEq R] in
theorem nodup_difference {nodes other : AssocMap ElementRef (SemanticNode R)} :
    (difference order nodes other).Nodup :=
  (order.perm _).nodup_iff.mpr ((nodup_keys nodes).filter _)

omit [BEq R] in
theorem nodup_intersection {nodes other : AssocMap ElementRef (SemanticNode R)} :
    (intersection order nodes other).Nodup :=
  (order.perm _).nodup_iff.mpr ((nodup_keys nodes).filter _)

omit [BEq R] in
theorem mem_difference {root other : SemanticNode R} (hroot : root.UniqueReferences)
    (hother : other.UniqueReferences) :
    reference ∈ difference order root.flatten other.flatten ↔
      Has root reference ∧ ¬ Has other reference := by
  rw [difference, (order.perm _).mem_iff, mem_filter, mem_keys_flatten hroot,
    ← mem_keys_flatten hother, Bool.not_eq_true', ← Bool.not_eq_true, contains_iff_mem]

omit [BEq R] in
theorem mem_intersection {root other : SemanticNode R} (hroot : root.UniqueReferences)
    (hother : other.UniqueReferences) :
    reference ∈ intersection order root.flatten other.flatten ↔
      Has root reference ∧ Has other reference := by
  rw [intersection, (order.perm _).mem_iff, mem_filter, mem_keys_flatten hroot,
    ← mem_keys_flatten hother, contains_iff_mem]

omit [BEq R] in
/-- The nodes of a reference are determined. -/
theorem Common.unique {before after a b a' b' : SemanticNode R}
    (hbefore : before.UniqueReferences) (hafter : after.UniqueReferences)
    (h : Common before after a b reference) (h' : Common before after a' b' reference) :
    a' = a ∧ b' = b := by
  constructor
  · exact inj_on_of_nodup_map hbefore h'.before_mem h.before_mem
      (h'.before_reference.trans h.before_reference.symm)
  · exact inj_on_of_nodup_map hafter h'.after_mem h.after_mem
      (h'.after_reference.trans h.after_reference.symm)

/-- What a filtering map reads off its results stands in the order of the list. -/
theorem map_filterMap_sublist {α β γ : Type} {f : α → Option β} {g : β → γ} {k : α → γ}
    {l : List α} (h : ∀ x ∈ l, ∀ y, f x = some y → g y = k x) :
    ((l.filterMap f).map g).Sublist (l.map k) := by
  induction l with
  | nil => exact List.Sublist.refl []
  | cons x l ih =>
    have hrest := ih fun y hy => h y (mem_cons_of_mem _ hy)
    cases hx : f x with
    | none =>
      rw [filterMap_cons_none hx, map_cons]
      exact hrest.cons _
    | some y =>
      rw [filterMap_cons_some hx, map_cons, map_cons, h x mem_cons_self y hx]
      exact hrest.cons_cons _

/-- What the loop finds. -/
theorem mem_commonChanges {change : ElementRef × Bool × Option (LayoutChange R)}
    (hbefore : before.root.UniqueReferences) (hafter : after.root.UniqueReferences) :
    change ∈ commonChanges order unprintable before.root.flatten after.root.flatten ↔
      ∃ a b, Common before.root after.root a b change.1 ∧
        change = (change.1, commonChange unprintable change.1 a b) := by
  rw [commonChanges, mem_filterMap]
  constructor
  · rintro ⟨reference, -, hchange⟩
    cases hold : before.root.flatten.get reference with
    | none => simp only [hold] at hchange; cases hchange
    | some a =>
      cases hnew : after.root.flatten.get reference with
      | none => simp only [hold, hnew] at hchange; cases hchange
      | some b =>
        simp only [hold, hnew] at hchange
        cases hchange
        obtain ⟨hamem, haref⟩ := (get_flatten hbefore).mp hold
        obtain ⟨hbmem, hbref⟩ := (get_flatten hafter).mp hnew
        exact ⟨a, b, ⟨hamem, hbmem, haref, hbref⟩, rfl⟩
  · rintro ⟨a, b, hcommon, hchange⟩
    have hold := (get_flatten hbefore).mpr
      ⟨hcommon.before_mem, hcommon.before_reference⟩
    have hnew := (get_flatten hafter).mpr
      ⟨hcommon.after_mem, hcommon.after_reference⟩
    refine ⟨change.1, (mem_intersection hbefore hafter).mpr
      ⟨⟨a, hcommon.before_mem, hcommon.before_reference⟩,
        ⟨b, hcommon.after_mem, hcommon.after_reference⟩⟩, ?_⟩
    simp only [hold, hnew]
    rw [← hchange]

/-- The loop treats each common reference once. -/
theorem nodup_commonChanges {old new : AssocMap ElementRef (SemanticNode R)} :
    ((commonChanges order unprintable old new).map Prod.fst).Nodup := by
  have hsublist : ((commonChanges order unprintable old new).map Prod.fst).Sublist
      ((intersection order old new).map id) := by
    refine map_filterMap_sublist ?_
    intro reference _ change hchange
    cases hold : old.get reference with
    | none => simp only [hold] at hchange; cases hchange
    | some a =>
      cases hnew : new.get reference with
      | none => simp only [hold, hnew] at hchange; cases hchange
      | some b =>
        simp only [hold, hnew] at hchange
        cases hchange
        rfl
  rw [map_id] at hsublist
  exact nodup_intersection.sublist hsublist

/-- The references that count as changed. -/
theorem mem_changedRefs (hbefore : before.root.UniqueReferences)
    (hafter : after.root.UniqueReferences) :
    reference ∈ (snapshotDiff order unprintable before after).changedRefs ↔
      Has after.root reference ∧ ¬ Has before.root reference ∨
        ∃ a b, Common before.root after.root a b reference ∧
          semanticSignature unprintable a ≠ semanticSignature unprintable b := by
  rw [snapshotDiff, mem_sortDedup, mem_append, mem_difference hafter hbefore, or_comm]
  refine or_congr_right ?_
  rw [mem_map]
  constructor
  · rintro ⟨change, hmem, rfl⟩
    obtain ⟨hchange, hdiffers⟩ := mem_filter.mp hmem
    obtain ⟨a, b, hcommon, heq⟩ := (mem_commonChanges hbefore hafter).mp hchange
    rw [heq] at hdiffers
    exact ⟨a, b, hcommon, of_decide_eq_true hdiffers⟩
  · rintro ⟨a, b, hcommon, hdiffers⟩
    refine ⟨(reference, commonChange unprintable reference a b), mem_filter.mpr ⟨?_, ?_⟩, rfl⟩
    · exact (mem_commonChanges hbefore hafter).mpr ⟨a, b, hcommon, rfl⟩
    · exact decide_eq_true hdiffers

theorem mem_layoutChanges {change : LayoutChange R} (hbefore : before.root.UniqueReferences)
    (hafter : after.root.UniqueReferences) :
    change ∈ (snapshotDiff order unprintable before after).layoutChanges ↔
      ∃ a b, Common before.root after.root a b change.reference ∧ (a.rect != b.rect) = true ∧
        change = ⟨change.reference, a.rect, b.rect⟩ := by
  rw [snapshotDiff, mem_filterMap]
  constructor
  · rintro ⟨found, hfound, hlayout⟩
    obtain ⟨a, b, hcommon, heq⟩ := (mem_commonChanges hbefore hafter).mp hfound
    rw [heq, commonChange] at hlayout
    by_cases hrect : (a.rect != b.rect) = true
    · simp only [hrect, if_true] at hlayout
      cases hlayout
      exact ⟨a, b, hcommon, hrect, rfl⟩
    · simp only [hrect] at hlayout
      cases hlayout
  · rintro ⟨a, b, hcommon, hrect, heq⟩
    refine ⟨(change.reference, commonChange unprintable change.reference a b),
      (mem_commonChanges hbefore hafter).mpr ⟨a, b, hcommon, rfl⟩, ?_⟩
    simp only [commonChange, hrect, if_true]
    rw [← heq]

theorem nodup_layoutChanges (hbefore : before.root.UniqueReferences)
    (hafter : after.root.UniqueReferences) :
    ((snapshotDiff order unprintable before after).layoutChanges.map
      LayoutChange.reference).Nodup := by
  refine (@nodup_commonChanges R _ order unprintable before.root.flatten
    after.root.flatten).sublist ?_
  refine map_filterMap_sublist ?_
  intro found hfound change hlayout
  obtain ⟨a, b, -, heq⟩ := (mem_commonChanges hbefore hafter).mp hfound
  rw [heq, commonChange] at hlayout
  by_cases hrect : (a.rect != b.rect) = true
  · simp only [hrect, if_true] at hlayout
    cases hlayout
    rfl
  · simp only [hrect] at hlayout
    cases hlayout

end

/-- **The difference, exactly.**  It says what changed just when the texts of common nodes
tell them apart and no entry of the console or the network that was there comes more often. -/
theorem snapshotDiff_exact_iff {R : Type} [BEq R] (order : HashOrder) (unprintable : Char → Bool)
    {before after : PageSnapshot R} (hbefore : before.root.UniqueReferences)
    (hafter : after.root.UniqueReferences) :
    DiffExact before after (snapshotDiff order unprintable before after) ↔
      SignaturesTell unprintable before.root after.root ∧
        NoMore before.consoleErrors after.consoleErrors ∧
        NoMore before.failedRequests after.failedRequests := by
  constructor
  · intro hexact
    refine ⟨?_, multisetDelta_exact_iff.mp hexact.console,
      multisetDelta_exact_iff.mp hexact.network⟩
    intro a b reference hcommon hsame
    by_contra hdiffers
    have hchanged := (hexact.changed reference).mpr (.inr ⟨a, b, hcommon, hdiffers⟩)
    rcases (mem_changedRefs hbefore hafter).mp hchanged with ⟨-, hnot⟩ | ⟨a', b', hcommon', hne⟩
    · exact hnot ⟨a, hcommon.before_mem, hcommon.before_reference⟩
    · obtain ⟨rfl, rfl⟩ := hcommon.unique hbefore hafter hcommon'
      exact hne hsame
  · rintro ⟨htell, hconsole, hnetwork⟩
    refine
      { changed_sorted := pairwise_sortDedup _, changed := ?_, removed_once := nodup_difference
        removed := fun reference => mem_difference hbefore hafter
        layout_once := nodup_layoutChanges hbefore hafter
        layout := fun change => mem_layoutChanges hbefore hafter
        console := multisetDelta_exact_iff.mpr hconsole
        network := multisetDelta_exact_iff.mpr hnetwork }
    intro reference
    rw [mem_changedRefs hbefore hafter]
    refine or_congr_right ?_
    constructor
    · rintro ⟨a, b, hcommon, hne⟩
      exact ⟨a, b, hcommon, fun hsame => hne (semanticSignature_congr hsame)⟩
    · rintro ⟨a, b, hcommon, hdiffers⟩
      exact ⟨a, b, hcommon, fun hsame => hdiffers (htell a b reference hcommon hsame)⟩

/-! ## A button in two snapshots -/

/-- The order in which things are stored. -/
def asListed : HashOrder := ⟨fun refs => refs, fun refs => List.Perm.refl refs⟩

/-- The ASCII characters that are not printed as they are. -/
def asciiControl (c : Char) : Bool := decide (c.toNat < 0x20) || decide (c.toNat = 0x7F)

/-- A button for the samples. -/
def button (tag : String) (attributes : List (String × String)) : SemanticNode Unit :=
  { reference := "@e1", role := some "button", name := none, tag, rect := none, interactive := true
    attributes := OrderedMap.ofList attributes, source := none, ownership := none, children := [] }

/-- A sample page. -/
def pageOf (root : SemanticNode Unit) : PageSnapshot Unit := ⟨1, "/", (800, 600), root, [], []⟩

theorem nodes_button (tag : String) (attributes : List (String × String)) :
    (button tag attributes).nodes = [button tag attributes] := by
  rw [nodes_eq]
  rfl

theorem uniqueReferences_button (tag : String) (attributes : List (String × String)) :
    (button tag attributes).UniqueReferences := by
  rw [SemanticNode.UniqueReferences, nodes_button]
  exact nodup_singleton _

/-- An element of a list. -/
def element (reference tag : String) (rect : Option Unit) (children : List (SemanticNode Unit)) :
    SemanticNode Unit :=
  { button tag [] with reference, rect, children }

/-- A list of two. -/
def listed : PageSnapshot Unit :=
  pageOf (element "@e1" "ul" none [element "@e2" "li" none [], element "@e3" "li" none []])

/-- The list is another one, its first element moved and its second gone, and an error shown. -/
def relisted : PageSnapshot Unit :=
  { pageOf (element "@e1" "ol" none [element "@e2" "li" (some ()) []]) with
    consoleErrors := [⟨"error", "gone", none, 1⟩] }

theorem snapshotDiff_exact_iff_listed :
    DiffExact listed relisted (snapshotDiff asListed asciiControl listed relisted) := by
  have htell : ∀ a ∈ listed.root.nodes, ∀ b ∈ relisted.root.nodes, a.reference = b.reference →
      semanticSignature asciiControl a = semanticSignature asciiControl b →
        (a.tag, a.role, a.name, a.interactive, a.attributes) =
          (b.tag, b.role, b.name, b.interactive, b.attributes) := by decide +kernel
  refine (snapshotDiff_exact_iff asListed asciiControl
    (by decide +kernel : (listed.root.nodes.map SemanticNode.reference).Nodup)
    (by decide +kernel : (relisted.root.nodes.map SemanticNode.reference).Nodup)).mpr
    ⟨fun a b reference hcommon htexts => ?_, fun v hv => absurd hv not_mem_nil,
      fun v hv => absurd hv not_mem_nil⟩
  have hsame := htell a hcommon.before_mem b hcommon.after_mem
    (hcommon.before_reference.trans hcommon.after_reference.symm) htexts
  simp only [Prod.mk.injEq] at hsame
  obtain ⟨htag, hrole, hname, hinteractive, hattributes⟩ := hsame
  exact ⟨htag, hrole, hname, hinteractive, hattributes⟩

/-- An attribute whose value reads like the next attribute is taken for it. -/
theorem attribute_change_missed :
    ¬ ∀ (order : HashOrder) (unprintable : Char → Bool) (before after : PageSnapshot Unit),
      before.root.UniqueReferences → after.root.UniqueReferences →
        DiffExact before after (snapshotDiff order unprintable before after) := by
  intro hall
  have hexact := hall asListed asciiControl (pageOf (button "a" [("k", "1;m=2")]))
    (pageOf (button "a" [("k", "1"), ("m", "2")])) (uniqueReferences_button _ _)
    (uniqueReferences_button _ _)
  have hchanged := (hexact.changed "@e1").mpr (.inr ⟨button "a" [("k", "1;m=2")],
    button "a" [("k", "1"), ("m", "2")], ⟨mem_nodes_self _,
      mem_nodes_self _, rfl, rfl⟩, fun hsame => ?_⟩)
  · revert hchanged
    decide +kernel
  · have hattributes := hsame.attributes
    revert hattributes
    decide +kernel

end SnapshotDiff
end Localview
