import Localview.LayoutAnalysis
import Localview.ParentChain

/-! # Ancestors in the layout analysis

Both walks over ancestors are given 16 turns, as many levels as the live projection keeps.
Within these they are exact; an ancestor further up is not seen.
-/
namespace Localview.Layout
open ParentChain List Option

variable {F : Type} {elements input : List (LayoutElement F)}

/-! ## Forests of elements -/

def UniqueRefs (elements : List (LayoutElement F)) : Prop :=
  (elements.map (·.reference)).Nodup

/-- Following parents never comes to a reference twice. -/
def Forest (elements : List (LayoutElement F)) : Prop :=
  ∀ reference, ¬Revisits (parentReference elements) reference

/-- One reference is an ancestor of another, at a distance within reach. -/
def IsAbove (elements : List (LayoutElement F)) (reach : Nat → Prop)
    (above below : String) : Prop :=
  ∃ k, 0 < k ∧ reach k ∧ ancestor (parentReference elements) below k = some above

variable {element : LayoutElement F}

theorem of_indexed {reference : String} (h : indexed elements reference = some element) :
    element ∈ elements ∧ element.reference = reference := by
  have hmem := mem_of_getLast? h
  rw [mem_filter, decide_eq_true_eq] at hmem
  exact hmem

theorem indexed_of_mem (hunique : UniqueRefs elements) (hmem : element ∈ elements) :
    indexed elements element.reference = some element := by
  cases h : indexed elements element.reference with
  | none =>
    have hempty := getLast?_eq_none_iff.mp h
    have hself := filter_eq_nil_iff.mp hempty element hmem
    simp at hself
  | some found =>
    obtain ⟨hfound, href⟩ := of_indexed h
    rw [inj_on_of_nodup_map hunique hfound hmem href]

theorem parentReference_of_mem (hunique : UniqueRefs elements) (hmem : element ∈ elements) :
    parentReference elements element.reference = element.parent := by
  rw [parentReference, indexed_of_mem hunique hmem, bind_some]

/-- Where parents are listed before their children, the elements are a forest. -/
theorem forest_of_parents_first
    (h : ∀ element ∈ elements, ∀ parent ∈ element.parent,
      (elements.map (·.reference)).idxOf parent <
        (elements.map (·.reference)).idxOf element.reference) : Forest elements := by
  have hrank : ∀ below above, parentReference elements below = some above →
      (elements.map (·.reference)).idxOf above < (elements.map (·.reference)).idxOf below := by
    intro below above hparent
    obtain ⟨element, hindexed, habove⟩ := Option.bind_eq_some_iff.mp hparent
    obtain ⟨hmem, rfl⟩ := of_indexed hindexed
    exact h element hmem above habove
  exact fun reference => not_revisits_of_rank hrank

/-! ## The walks -/

section
variable {start : String} {visited : List String} {steps i : Nat}

/-- In a forest a walk that remembers ancestors only is never stopped by them. -/
theorem not_mem_visited (hforest : Forest elements) {reference : String}
    (hvisited : ∀ r ∈ visited, ∃ j ≤ i, ancestor (parentReference elements) start j = some r)
    (hnext : ancestor (parentReference elements) start (i + 1) = some reference) :
    reference ∉ visited := by
  intro hmem
  obtain ⟨j, hle, hj⟩ := hvisited reference hmem
  exact hforest start ⟨j, i + 1, reference, by omega, hj, hnext⟩

/-- Remembering the next ancestor too. -/
theorem visited_cons {reference : String}
    (hvisited : ∀ r ∈ visited, ∃ j ≤ i, ancestor (parentReference elements) start j = some r)
    (hnext : ancestor (parentReference elements) start (i + 1) = some reference) :
    ∀ r ∈ reference :: visited,
      ∃ j ≤ i + 1, ancestor (parentReference elements) start j = some r := by
  intro r hmem
  rcases mem_cons.mp hmem with rfl | hmem
  · exact ⟨i + 1, Nat.le_refl _, hnext⟩
  · obtain ⟨j, hle, hj⟩ := hvisited r hmem
    exact ⟨j, by omega, hj⟩

/-- A walk that finds no constraint leaves none on the ancestors it is given turns for. -/
theorem not_constrains_of_constrainedFrom {xAxis : Bool} (hforest : Forest elements)
    (hvisited : ∀ r ∈ visited, ∃ j ≤ i, ancestor (parentReference elements) start j = some r)
    (h : constrainedFrom elements xAxis steps
      (ancestor (parentReference elements) start (i + 1)) visited = false)
    {k : Nat} (hlt : i < k) (hle : k ≤ i + steps) {reference : String}
    (hk : ancestor (parentReference elements) start k = some reference)
    {element : LayoutElement F} (hindexed : indexed elements reference = some element) :
    constrainsAxis xAxis element = false := by
  induction steps generalizing i visited with
  | zero => omega
  | succ steps ih =>
    -- the next ancestor exists since a later one does
    obtain ⟨next, hnext⟩ := exists_ancestor_of_le (m := i + 1) (by omega) hk
    rw [hnext, constrainedFrom, if_neg (not_mem_visited hforest hvisited hnext)] at h
    by_cases hlast : k = i + 1
    · subst hlast
      obtain rfl := Option.some.inj (hnext.symm.trans hk)
      simp only [hindexed] at h
      by_cases hconstrains : constrainsAxis xAxis element = true
      · rw [if_pos hconstrains] at h
        cases h
      · exact Bool.eq_false_iff.mpr hconstrains
    · cases hnode : indexed elements next with
      | none =>
        -- nothing is above a reference that no element has
        have hend : ancestor (parentReference elements) start (i + 2) = none := by
          rw [ancestor_succ hnext, parentReference, hnode, bind_none]
        obtain ⟨further, hfurther⟩ := exists_ancestor_of_le (m := i + 2) (by omega) hk
        rw [hend] at hfurther
        cases hfurther
      | some node =>
        have hparent : ancestor (parentReference elements) start (i + 1 + 1) = node.parent := by
          rw [ancestor_succ hnext, parentReference, hnode, bind_some]
        simp only [hnode] at h
        by_cases hconstrains : constrainsAxis xAxis node = true
        · rw [if_pos hconstrains] at h
          cases h
        · rw [if_neg hconstrains, ← hparent] at h
          exact ih (visited_cons hvisited hnext) h (by omega) (by omega)

/-- A walk that does not find an ancestor has not come past it. -/
theorem ancestor_ne_of_isAncestorFrom {possible : String} (hforest : Forest elements)
    (hvisited : ∀ r ∈ visited, ∃ j ≤ i, ancestor (parentReference elements) start j = some r)
    (h : isAncestorFrom elements possible steps
      (ancestor (parentReference elements) start (i + 1)) visited = false)
    {k : Nat} (hlt : i < k) (hle : k ≤ i + steps) :
    ancestor (parentReference elements) start k ≠ some possible := by
  intro hk
  induction steps generalizing i visited with
  | zero => omega
  | succ steps ih =>
    obtain ⟨next, hnext⟩ := exists_ancestor_of_le (m := i + 1) (by omega) hk
    rw [hnext, isAncestorFrom] at h
    by_cases hfound : next = possible
    · rw [if_pos hfound] at h
      cases h
    · rw [if_neg hfound, if_neg (not_mem_visited hforest hvisited hnext),
        ← ancestor_succ hnext] at h
      have hlater : k ≠ i + 1 := by
        rintro rfl
        exact hfound (Option.some.inj (hnext.symm.trans hk))
      exact ih (visited_cons hvisited hnext) h (by omega) (by omega)

end

theorem not_isAbove_of_isAncestor (hforest : Forest elements) {above below : String}
    (h : isAncestor elements above below = false) :
    ¬IsAbove elements (· ≤ maxAncestorSteps) above below := by
  rintro ⟨k, hpos, hle, hk⟩
  have hvisited : ∀ r ∈ ([] : List String),
      ∃ j ≤ 0, ancestor (parentReference elements) below j = some r := by
    intro r hmem
    cases hmem
  exact ancestor_ne_of_isAncestorFrom hforest hvisited h hpos (by omega) hk

theorem not_constrains_of_isAbove {xAxis : Bool} (hunique : UniqueRefs elements)
    (hforest : Forest elements) {element above : LayoutElement F} (hmem : element ∈ elements)
    (habove : above ∈ elements) (h : hasConstrainingAncestor elements element xAxis = false)
    (hover : IsAbove elements (· ≤ maxAncestorSteps) above.reference element.reference) :
    constrainsAxis xAxis above = false := by
  obtain ⟨k, hpos, hle, hk⟩ := hover
  have hfirst : ancestor (parentReference elements) element.reference (0 + 1) = element.parent :=
    parentReference_of_mem hunique hmem
  rw [hasConstrainingAncestor, ← hfirst] at h
  refine not_constrains_of_constrainedFrom hforest ?_ h hpos (by omega) hk
    (indexed_of_mem hunique habove)
  intro r hmem
  cases hmem

/-- Where nothing is further up, every ancestor is within reach. -/
theorem isAbove_within {above below : String}
    (hend : ancestor (parentReference input) below (maxAncestorSteps + 1) = none)
    (h : IsAbove input (fun _ => True) above below) :
    IsAbove input (· ≤ maxAncestorSteps) above below := by
  obtain ⟨k, hpos, -, hk⟩ := h
  refine ⟨k, hpos, ?_, hk⟩
  by_contra hfar
  obtain ⟨further, hfurther⟩ :=
    exists_ancestor_of_le (m := maxAncestorSteps + 1) (by omega) hk
  rw [hend] at hfurther
  cases hfurther

variable [LayoutFloat F] {viewport : F × F} {issue : LayoutIssue}

/-- The axes on which an element leaves the viewport, the vertical one only where it is fixed. -/
def overflowsAxis (viewport : F × F) (xAxis : Bool) (element : LayoutElement F) : Bool :=
  if xAxis then (outsideViewport element.rect viewport).1
  else (outsideViewport element.rect viewport).2 && isFixedOrSticky element

/-- The reports respect the ancestors within reach. -/
structure AncestryRight (input : List (LayoutElement F)) (viewport : F × F)
    (reach : Nat → Prop) : Prop where
  uncontained : ∀ issue ∈ (analyze input viewport).issues, issue.code = "viewport_overflow" →
    ∃ element ∈ input, issue.refs = [element.reference] ∧
      ∃ xAxis, overflowsAxis viewport xAxis element = true ∧
        ∀ above ∈ input, IsAbove input reach above.reference element.reference →
          constrainsAxis xAxis above = false
  unrelated : ∀ issue ∈ (analyze input viewport).issues, issue.code ∈ collisionCodes →
    ∃ left ∈ input, ∃ right ∈ input, issue.refs = [left.reference, right.reference] ∧
      ¬IsAbove input reach left.reference right.reference ∧
      ¬IsAbove input reach right.reference left.reference

theorem mem_of_mem_laterPairs {α : Type} {l : List α} {pair : α × α}
    (h : pair ∈ laterPairs l) : pair.1 ∈ l ∧ pair.2 ∈ l := by
  induction l with
  | nil => cases h
  | cons a rest ih =>
    rcases mem_append.mp h with h | h
    · obtain ⟨b, hb, rfl⟩ := mem_map.mp h
      exact ⟨mem_cons_self, mem_cons_of_mem a hb⟩
    · exact ⟨mem_cons_of_mem a (ih h).1, mem_cons_of_mem a (ih h).2⟩

/-- An axis that is left uncontained. -/
theorem of_and_not_and {escapes constrained : Bool}
    (h : (escapes && !(escapes && constrained)) = true) : escapes = true ∧ constrained = false := by
  revert h
  cases escapes <;> cases constrained <;> decide

/-- What a viewport overflow is reported of. -/
theorem viewportOverflow_axis (h : viewportOverflow elements viewport element = some issue) :
    ∃ xAxis, overflowsAxis viewport xAxis element = true ∧
      hasConstrainingAncestor elements element xAxis = false := by
  simp only [viewportOverflow] at h
  split at h
  · cases h
  · split at h
    · cases h
    · rename_i hescapes
      rw [Bool.or_eq_true, not_or, Bool.not_eq_true, Bool.not_eq_false'] at hescapes
      obtain ⟨hescapes, -⟩ := hescapes
      rcases Bool.or_eq_true_iff.mp hescapes with hx | hy
      · exact ⟨true, of_and_not_and hx⟩
      · exact ⟨false, of_and_not_and hy⟩

/-! ## The phases that the reports come from -/

/-- The codes of the issues that have nothing to do with ancestors. -/
def unrelatedCodes : List String :=
  ["invalid_viewport_geometry", "invalid_geometry", "zero_area", "container_overflow",
    "control_occluded", "spacing_outlier", "alignment_outlier"]

theorem detected_origin (h : issue ∈ detected input viewport) :
    issue.code ∈ unrelatedCodes ∨
      (∃ element ∈ input.take maxLayoutElements,
        viewportOverflow (input.take maxLayoutElements) viewport element = some issue) ∨
      ∃ left ∈ input.take maxLayoutElements, ∃ right ∈ input.take maxLayoutElements,
        collisionIssue (input.take maxLayoutElements) left right = some issue := by
  unfold detected at h
  split at h
  · rw [mem_singleton.mp h]
    exact .inl (by decide)
  simp only [phases, flatten_cons, flatten_nil, append_nil, mem_append] at h
  rcases h with h | h | h | h | h | h
  · obtain ⟨element, -, h⟩ := mem_filterMap.mp h
    have hsubset : ["invalid_geometry", "zero_area"] ⊆ unrelatedCodes := by decide
    exact .inl (hsubset (geometryIssue_eq_some h).2)
  · obtain ⟨element, hvalid, h⟩ := mem_flatMap.mp h
    rcases mem_append.mp h with h | h
    · obtain ⟨parent, -, h⟩ := Option.bind_eq_some_iff.mp (Option.mem_toList.mp h)
      rw [(containerOverflow_eq_some h).2]
      exact .inl (by decide)
    · exact .inr (Or.inl ⟨element, mem_of_mem_filter hvalid, Option.mem_toList.mp h⟩)
  · obtain ⟨element, -, h⟩ := mem_filterMap.mp h
    rw [(occlusionIssue_eq_some h).2]
    exact .inl (by decide)
  · obtain ⟨pair, hpair, h⟩ := mem_filterMap.mp h
    obtain ⟨hleft, hright⟩ := mem_of_mem_laterPairs hpair
    exact .inr (Or.inr
      ⟨pair.1, mem_of_mem_filter hleft, pair.2, mem_of_mem_filter hright, h⟩)
  · rw [(of_mem_spacingIssues h).2]
    exact .inl (by decide)
  · rw [(of_mem_alignmentIssues h).2]
    exact .inl (by decide)

/-- Neither a collision nor an issue of the other phases is a viewport overflow. -/
theorem exists_of_viewport_overflow (h : issue ∈ detected input viewport)
    (hcode : issue.code = "viewport_overflow") :
    ∃ element ∈ input.take maxLayoutElements,
      viewportOverflow (input.take maxLayoutElements) viewport element = some issue := by
  rcases detected_origin h with hother | hviewport | ⟨left, -, right, -, hcollision⟩
  · rw [hcode] at hother
    exact absurd hother (by decide)
  · exact hviewport
  · have hother := (collisionIssue_eq_some hcollision).2.1
    rw [hcode] at hother
    exact absurd hother (by decide)

theorem exists_of_collision (h : issue ∈ detected input viewport)
    (hcode : issue.code ∈ collisionCodes) :
    ∃ left ∈ input.take maxLayoutElements, ∃ right ∈ input.take maxLayoutElements,
      collisionIssue (input.take maxLayoutElements) left right = some issue := by
  rcases detected_origin h with hother | ⟨element, -, hviewport⟩ | hcollision
  · have hdisjoint : ∀ code ∈ collisionCodes, code ∉ unrelatedCodes := by decide
    exact absurd hother (hdisjoint issue.code hcode)
  · rw [(viewportOverflow_eq_some hviewport).2.1] at hcode
    exact absurd hcode (by decide)
  · exact hcollision

theorem analyze_ancestry_within (hlength : input.length ≤ maxLayoutElements)
    (hunique : UniqueRefs input) (hforest : Forest input) :
    AncestryRight input viewport (· ≤ maxAncestorSteps) where
  uncontained issue hissue hcode := by
    obtain ⟨element, hmem, hviewport⟩ :=
      exists_of_viewport_overflow (mem_detected_of_mem_issues hissue) hcode
    rw [take_of_length_le hlength] at hmem hviewport
    obtain ⟨xAxis, hescapes, hfree⟩ := viewportOverflow_axis hviewport
    refine ⟨element, hmem, (viewportOverflow_eq_some hviewport).2.2, xAxis, hescapes, ?_⟩
    intro above habove hover
    exact not_constrains_of_isAbove hunique hforest hmem habove hfree hover
  unrelated issue hissue hcode := by
    obtain ⟨left, hleft, right, hright, hcollision⟩ :=
      exists_of_collision (mem_detected_of_mem_issues hissue) hcode
    rw [take_of_length_le hlength] at hleft hright hcollision
    obtain ⟨-, -, hrefs, hnot, hnot'⟩ := collisionIssue_eq_some hcollision
    exact ⟨left, hleft, right, hright, hrefs, not_isAbove_of_isAncestor hforest hnot,
      not_isAbove_of_isAncestor hforest hnot'⟩

theorem AncestryRight.of_shallow (h : AncestryRight input viewport (· ≤ maxAncestorSteps))
    (hend : ∀ element ∈ input,
      ancestor (parentReference input) element.reference (maxAncestorSteps + 1) = none) :
    AncestryRight input viewport fun _ => True where
  uncontained issue hissue hcode := by
    obtain ⟨element, hmem, hrefs, xAxis, hescapes, hfree⟩ := h.uncontained issue hissue hcode
    refine ⟨element, hmem, hrefs, xAxis, hescapes, ?_⟩
    intro above habove hover
    exact hfree above habove (isAbove_within (hend element hmem) hover)
  unrelated issue hissue hcode := by
    obtain ⟨left, hleft, right, hright, hrefs, hnot, hnot'⟩ := h.unrelated issue hissue hcode
    refine ⟨left, hleft, right, hright, hrefs, ?_, ?_⟩
    · exact fun hover => hnot (isAbove_within (hend right hright) hover)
    · exact fun hover => hnot' (isAbove_within (hend left hleft) hover)

/-- **Ancestry is exact among the nearest 16 ancestors of an element.** -/
theorem analyze_ancestry (input : List (LayoutElement F)) (viewport : F × F)
    (hlength : input.length ≤ maxLayoutElements) (hunique : UniqueRefs input)
    (hforest : Forest input) :
    AncestryRight input viewport (· ≤ maxAncestorSteps) ∧
      ((∀ element ∈ input,
          ancestor (parentReference input) element.reference (maxAncestorSteps + 1) = none) →
        AncestryRight input viewport fun _ => True) := by
  have hwithin : AncestryRight input viewport (· ≤ maxAncestorSteps) :=
    analyze_ancestry_within hlength hunique hforest
  exact ⟨hwithin, hwithin.of_shallow⟩

/-! ## A chain of 17 levels -/

/-- A frame of 50 by 50 that hides what leaves it sideways. -/
def hidingFrame : LayoutElement ℚ :=
  { reference := "frame", rect := { x := 0, y := 0, width := 50, height := 50 }, parent := none
    interactive := true, style := { overflowX := some .hidden } }

/-- The elements between the frame and the leaf, each the child of the one before. -/
def link (n : Nat) : LayoutElement ℚ :=
  { reference := toString n, rect := { x := 0, y := 0, width := 50, height := 50 }
    parent := some (if n = 0 then "frame" else toString (n - 1)) }

/-- An element that leaves the frame and the viewport. -/
def wideLeaf (parent : String) : LayoutElement ℚ :=
  { reference := "leaf", rect := { x := 10, y := 0, width := 200, height := 40 }
    parent := some parent }

/-- The leaf so many links below the frame. -/
def chainOf (links : Nat) : List (LayoutElement ℚ) :=
  hidingFrame :: ((List.range links).map link ++
    [wideLeaf (if links = 0 then "frame" else toString (links - 1))])

theorem shortChain_ancestry :
    (chainOf 2).length ≤ maxLayoutElements ∧ UniqueRefs (chainOf 2) ∧ Forest (chainOf 2) ∧
      AncestryRight (chainOf 2) (100, 100) fun _ => True := by
  have hunique : UniqueRefs (chainOf 2) := by unfold UniqueRefs; decide
  have hforest : Forest (chainOf 2) := forest_of_parents_first (by decide)
  have hshallow : ∀ element ∈ chainOf 2, ancestor (parentReference (chainOf 2))
      element.reference (maxAncestorSteps + 1) = none := by
    decide
  exact ⟨by decide, hunique, hforest,
    (analyze_ancestry (chainOf 2) (100, 100) (by decide) hunique hforest).2 hshallow⟩

/-- Below 16 links the leaf is reported to collide with the frame it is in. -/
theorem deepChain_collides : ¬∀ (input : List (LayoutElement ℚ)) (viewport : ℚ × ℚ),
    input.length ≤ maxLayoutElements → UniqueRefs input → Forest input →
      AncestryRight input viewport fun _ => True := by
  intro hright
  have hunique : UniqueRefs (chainOf 16) := by unfold UniqueRefs; decide +kernel
  have hforest : Forest (chainOf 16) := forest_of_parents_first (by decide +kernel)
  have hdetected : ∃ issue ∈ (detected (chainOf 16) (100, 100)).take maxLayoutIssues,
      issue.code = "substantial_overlap" ∧ issue.refs = ["frame", "leaf"] := by
    decide +kernel
  have habove : ancestor (parentReference (chainOf 16)) "leaf" 17 = some "frame" := by
    decide +kernel
  obtain ⟨issue, hissue, hcode, hrefs⟩ := hdetected
  obtain ⟨left, -, right, -, hrefs', hnot, -⟩ :=
    (hright (chainOf 16) (100, 100) (by decide) hunique hforest).unrelated issue
      ((perm_issues _ _).mem_iff.mpr hissue) (by rw [hcode]; decide)
  rw [hrefs] at hrefs'
  injection hrefs' with hleft hrest
  injection hrest with hright'
  apply hnot
  rw [← hleft, ← hright']
  exact ⟨17, by decide, trivial, habove⟩

end Localview.Layout
