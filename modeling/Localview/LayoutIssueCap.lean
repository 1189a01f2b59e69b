import Mathlib.Algebra.Order.Group.Multiset
import Localview.LayoutAnalysis

/-! # What the cap on layout issues loses

The list of issues is full before it is sorted, so what is lost is what is detected last.  The
phases that detect mere information come last; the others find warnings and errors in turn.
-/
namespace Localview.Layout
open List

variable {F : Type} [LayoutFloat F] {input : List (LayoutElement F)} {viewport : F × F}
  {issue : LayoutIssue}

/-- The detected issues that the cap drops. -/
def missing (input : List (LayoutElement F)) (viewport : F × F) : Multiset LayoutIssue :=
  (detected input viewport : Multiset LayoutIssue) - ((analyze input viewport).issues : Multiset _)

theorem missing_eq (input : List (LayoutElement F)) (viewport : F × F) :
    missing input viewport = ((detected input viewport).drop maxLayoutIssues : List LayoutIssue) := by
  have hreported : ((analyze input viewport).issues : Multiset LayoutIssue) =
      ((detected input viewport).take maxLayoutIssues : List LayoutIssue) :=
    Multiset.coe_eq_coe.mpr (perm_issues input viewport)
  have hsplit : (detected input viewport : Multiset LayoutIssue) =
      ((detected input viewport).take maxLayoutIssues : List LayoutIssue) +
        ((detected input viewport).drop maxLayoutIssues : List LayoutIssue) := by
    rw [Multiset.coe_add, take_append_drop]
  rw [missing, hreported, hsplit, add_tsub_cancel_left]

/-- The severities of the phases: what is mere information is detected last. -/
theorem detected_split (input : List (LayoutElement F)) (viewport : F × F) :
    ∃ early late, detected input viewport = early ++ late ∧
      (∀ i ∈ early, i.severity ≠ .info) ∧ ∀ i ∈ late, i.severity = .info := by
  by_cases h : (!finitePositive viewport.1 || !finitePositive viewport.2) = true
  · refine ⟨[invalidViewport], [], by rw [detected, if_pos h, append_nil], ?_, ?_⟩
    · intro i hi
      rw [mem_singleton.mp hi]
      exact Severity.noConfusion
    · intro i hi
      cases hi
  refine ⟨((phases (input.take maxLayoutElements) viewport).take 4).flatten,
    ((phases (input.take maxLayoutElements) viewport).drop 4).flatten, ?_, ?_, ?_⟩
  · rw [detected, if_neg h, ← flatten_append, take_append_drop]
  · intro i hi
    simp only [phases, take_succ_cons, take_zero, flatten_cons, flatten_nil,
      append_nil, mem_append] at hi
    rcases hi with hi | hi | hi | hi
    · obtain ⟨element, -, hi⟩ := mem_filterMap.mp hi
      exact (geometryIssue_eq_some hi).1
    · obtain ⟨element, -, hi⟩ := mem_flatMap.mp hi
      rcases mem_append.mp hi with hi | hi
      · obtain ⟨parent, -, hi⟩ := Option.bind_eq_some_iff.mp (Option.mem_toList.mp hi)
        rw [(containerOverflow_eq_some hi).1]
        exact Severity.noConfusion
      · rw [(viewportOverflow_eq_some (Option.mem_toList.mp hi)).1]
        exact Severity.noConfusion
    · obtain ⟨element, -, hi⟩ := mem_filterMap.mp hi
      rw [(occlusionIssue_eq_some hi).1]
      exact Severity.noConfusion
    · obtain ⟨pair, -, hi⟩ := mem_filterMap.mp hi
      exact (collisionIssue_eq_some hi).1
  · intro i hi
    simp only [phases, drop_succ_cons, drop_zero, flatten_cons, flatten_nil,
      append_nil, mem_append] at hi
    rcases hi with hi | hi
    · exact (of_mem_spacingIssues hi).1
    · exact (of_mem_alignmentIssues hi).1

/-- After a beginning with mere information there is only that. -/
theorem info_of_drop {early late : List LayoutIssue} {n : Nat} {found later : LayoutIssue}
    (hearly : ∀ i ∈ early, i.severity ≠ .info) (hlate : ∀ i ∈ late, i.severity = .info)
    (hfound : found ∈ (early ++ late).take n) (hinfo : found.severity = .info)
    (hlater : later ∈ (early ++ late).drop n) : later.severity = .info := by
  have hbeyond : early.length < n := by
    by_contra hle
    rw [take_append_of_le_length (Nat.not_lt.mp hle)] at hfound
    exact hearly found (mem_of_mem_take hfound) hinfo
  rw [drop_append, drop_of_length_le (Nat.le_of_lt hbeyond), nil_append] at hlater
  exact hlate later (mem_of_mem_drop hlater)

theorem severityRank_le_error (s : Severity) : severityRank s ≤ severityRank .error := by
  cases s <;> decide

/-- **The most severe issues are kept exactly if no error is detected past the cap, or only
errors before it.** -/
theorem analyze_keeps_most_severe_iff (input : List (LayoutElement F)) (viewport : F × F) :
    (∀ lost ∈ missing input viewport, ∀ reported ∈ (analyze input viewport).issues,
        severityRank lost.severity ≤ severityRank reported.severity) ↔
      (∀ i ∈ (detected input viewport).take maxLayoutIssues, i.severity = .error) ∨
        ∀ i ∈ (detected input viewport).drop maxLayoutIssues, i.severity ≠ .error := by
  have hlost (i : LayoutIssue) : i ∈ missing input viewport ↔
      i ∈ (detected input viewport).drop maxLayoutIssues := by
    rw [missing_eq, Multiset.mem_coe]
  have hreported (i : LayoutIssue) : i ∈ (analyze input viewport).issues ↔
      i ∈ (detected input viewport).take maxLayoutIssues :=
    (perm_issues input viewport).mem_iff
  simp only [hlost, hreported]
  constructor
  · intro hkept
    by_contra hnot
    rw [not_or] at hnot
    obtain ⟨hmixed, herror⟩ := hnot
    push Not at hmixed herror
    obtain ⟨reported, hin, hne⟩ := hmixed
    obtain ⟨lost, hdropped, hsevere⟩ := herror
    have hle := hkept lost hdropped reported hin
    rw [hsevere] at hle
    revert hle hne
    cases reported.severity <;> decide
  · rintro (herrors | hnone) lost hdropped reported hin
    · rw [herrors reported hin]
      exact severityRank_le_error _
    · -- a lost warning can only be outranked by nothing, a lost information by nothing either
      obtain ⟨early, late, hsplit, hearly, hlate⟩ := detected_split input viewport
      rw [hsplit] at hdropped hin hnone
      by_cases hinfo : reported.severity = .info
      · rw [hinfo, info_of_drop hearly hlate hin hinfo hdropped]
      · have hne := hnone lost hdropped
        revert hinfo hne
        cases reported.severity <;> cases lost.severity <;> decide

/-- As many elements without area as the list of issues holds, and then one of negative width. -/
def flatBeforeInverted : List (LayoutElement ℚ) :=
  (List.range maxLayoutIssues).map (fun n =>
    { reference := toString n, rect := { x := 1, y := 1, width := 0, height := 0 }
      parent := none }) ++
    [{ reference := "inverted", rect := { x := 1, y := 1, width := -1, height := 1 }
       parent := none }]

/-- The error of the last element is lost, the warnings of the others are reported. -/
theorem inverted_lost : ¬∀ (input : List (LayoutElement ℚ)) (viewport : ℚ × ℚ),
    ∀ lost ∈ missing input viewport, ∀ reported ∈ (analyze input viewport).issues,
      severityRank lost.severity ≤ severityRank reported.severity := by
  intro hkept
  have hlost : ∃ lost ∈ (detected flatBeforeInverted (100, 100)).drop maxLayoutIssues,
      lost.severity = .error := by
    decide +kernel
  have hreported : ∃ i ∈ (detected flatBeforeInverted (100, 100)).take maxLayoutIssues,
      i.severity = .warning := by
    decide +kernel
  obtain ⟨lost, hlost, herror⟩ := hlost
  obtain ⟨reported, hreported, hwarning⟩ := hreported
  have hle := hkept flatBeforeInverted (100, 100) lost (by rw [missing_eq]; exact hlost) reported
    ((perm_issues _ _).mem_iff.mpr hreported)
  rw [herror, hwarning] at hle
  revert hle
  decide

end Localview.Layout
