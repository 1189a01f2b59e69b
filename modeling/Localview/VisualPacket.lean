import Localview.GreedyPicking
import Localview.TokenBudget
import Localview.VisualImage

/-! # Selecting a visual packet

The pieces of evidence that may be shown, scored by what they tell for what they cost, are
picked in order of their scores up to a number of regions, each unless it shows nearly what
one picked before it shows, and listed by where they are.

The comparison by score tells any two pieces of evidence apart, so the order in which the
candidates come does not matter, except for which of several faults is reported.
-/
namespace Localview
open EarlyReturn GreedyPicking List

/-- How much text and how many images. -/
structure VisualPacketBudget where
  text : TokenBudget
  imageRegions : Nat

/-- What a candidate image shows. -/
inductive VisualPacketSource
  | changedRegion
  | progressiveElement
  | progressiveComponent
  | progressiveSection
  | viewportFallback
deriving DecidableEq

/-- An image that could be sent. -/
structure VisualPacketCandidate where
  source : VisualPacketSource
  rect : Rect
  (informationGainMilli confidenceMilli relevanceMilli : Nat)

/-- An image that is sent. -/
structure SelectedVisualEvidence where
  source : VisualPacketSource
  rect : Rect
  (informationGainMilli confidenceMilli relevanceMilli normalizedCostMilli utilityScore : Nat)
deriving DecidableEq

/-- Whether images are wanted at all. -/
inductive VisualPacketSelectionMode
  | metadataOnly
  | images
deriving DecidableEq

/-- The images that are sent. -/
structure VisualPacketSelection where
  mode : VisualPacketSelectionMode
  selected : List SelectedVisualEvidence
  droppedCandidates : Nat
deriving DecidableEq

/-- Why no packet is selected. -/
inductive VisualPacketSelectionError
  | invalidViewport
  | invalidCandidateGeometry
  | invalidCandidateScore
deriving DecidableEq

/-! ## Scores -/

def validateCandidate (candidate : VisualPacketCandidate) (viewport : Nat × Nat) :
    Except VisualPacketSelectionError Unit := do
  rejectIf (1000 < candidate.informationGainMilli ∨ 1000 < candidate.confidenceMilli ∨
    1000 < candidate.relevanceMilli) .invalidCandidateScore
  rejectIf (candidate.rect.x < 0 ∨ candidate.rect.y < 0 ∨ candidate.rect.width ≤ 0 ∨
    candidate.rect.height ≤ 0 ∨ (viewport.1 : ℚ) < candidate.rect.x + candidate.rect.width ∨
    (viewport.2 : ℚ) < candidate.rect.y + candidate.rect.height) .invalidCandidateGeometry

def sourceBaseCost : VisualPacketSource → Nat
  | .changedRegion => 25
  | .progressiveElement => 50
  | .progressiveComponent => 100
  | .progressiveSection => 180
  | .viewportFallback => 300

def sourceRank : VisualPacketSource → Nat
  | .changedRegion => 0
  | .progressiveElement => 1
  | .progressiveComponent => 2
  | .progressiveSection => 3
  | .viewportFallback => 4

def scoreCandidate (viewport : Nat × Nat) (candidate : VisualPacketCandidate) :
    SelectedVisualEvidence :=
  let viewportArea : ℚ := viewport.1 * viewport.2
  let area := candidate.rect.width * candidate.rect.height
  let areaCostMilli := (max 1 (min (area / viewportArea * 1000).ceil 1000)).toNat
  let normalizedCostMilli := sourceBaseCost candidate.source + areaCostMilli
  let numerator := candidate.informationGainMilli * candidate.confidenceMilli *
    candidate.relevanceMilli * 1000
  { source := candidate.source, rect := candidate.rect
    informationGainMilli := candidate.informationGainMilli
    confidenceMilli := candidate.confidenceMilli, relevanceMilli := candidate.relevanceMilli
    normalizedCostMilli := normalizedCostMilli
    utilityScore := min (numerator / max normalizedCostMilli 1) u64Max }

/-- The loop that checks the candidates and scores them. -/
def scoreCandidates (viewport : Nat × Nat) :
    List VisualPacketCandidate → Except VisualPacketSelectionError (List SelectedVisualEvidence)
  | [] => .ok []
  | candidate :: rest => do
    validateCandidate candidate viewport
    let scored ← scoreCandidates viewport rest
    return scoreCandidate viewport candidate :: scored

/-! ## Comparisons -/

def compareRect (left right : Rect) : Ordering :=
  (compare left.x right.x).then <| (compare left.y right.y).then <|
    (compare left.width right.width).then <| compare left.height right.height

def compareScoredCandidates (left right : SelectedVisualEvidence) : Ordering :=
  (compare right.utilityScore left.utilityScore).then <|
    (compare right.informationGainMilli left.informationGainMilli).then <|
    (compare right.confidenceMilli left.confidenceMilli).then <|
    (compare right.relevanceMilli left.relevanceMilli).then <|
    (compare left.normalizedCostMilli right.normalizedCostMilli).then <|
    (compare (sourceRank left.source) (sourceRank right.source)).then <|
    compareRect left.rect right.rect

def compareSelectedGeometry (left right : SelectedVisualEvidence) : Ordering :=
  (compareRect left.rect right.rect).then <|
    compare (sourceRank left.source) (sourceRank right.source)

/-- How much of the smaller rectangle lies in the other. -/
def overlapFractionOfSmaller (left right : Rect) : ℚ :=
  let overlapWidth := min (left.x + left.width) (right.x + right.width) - max left.x right.x
  let overlapHeight := min (left.y + left.height) (right.y + right.height) - max left.y right.y
  if overlapWidth ≤ 0 ∨ overlapHeight ≤ 0 then 0
  else
    let smallerArea := min (left.width * left.height) (right.width * right.height)
    if smallerArea ≤ 0 then 0 else overlapWidth * overlapHeight / smallerArea

def evidenceIsRedundant (left right : SelectedVisualEvidence) : Bool :=
  decide (85 / 100 ≤ overlapFractionOfSmaller left.rect right.rect)

/-! ## The selection -/

def selectScored (budget : VisualPacketBudget) (candidates : Nat)
    (scored : List SelectedVisualEvidence) : VisualPacketSelection :=
  if budget.imageRegions = 0 ∨ scored = [] then ⟨.metadataOnly, [], candidates⟩
  else
    let ordered := scored.mergeSort fun left right => (compareScoredCandidates left right).isLE
    let picked := pick evidenceIsRedundant budget.imageRegions [] ordered
    let selected := picked.mergeSort fun left right => (compareSelectedGeometry left right).isLE
    { mode := if selected.isEmpty then .metadataOnly else .images, selected := selected
      droppedCandidates := candidates - selected.length }

def selectVisualPacket (viewport : Nat × Nat) (candidates : List VisualPacketCandidate)
    (budget : VisualPacketBudget) : Except VisualPacketSelectionError VisualPacketSelection := do
  rejectIf (viewport.1 = 0 ∨ viewport.2 = 0) .invalidViewport
  let scored ← scoreCandidates viewport candidates
  return selectScored budget candidates.length scored

/-! ## The order of scores is total -/

theorem compareScoredCandidates_lex : compareScoredCandidates =
    compareLex (fun left right => compareOn (·.utilityScore) right left)
      (compareLex (fun left right => compareOn (·.informationGainMilli) right left)
      (compareLex (fun left right => compareOn (·.confidenceMilli) right left)
      (compareLex (fun left right => compareOn (·.relevanceMilli) right left)
      (compareLex (compareOn (·.normalizedCostMilli))
      (compareLex (compareOn fun evidence => sourceRank evidence.source)
      (compareLex (compareOn (·.rect.x)) (compareLex (compareOn (·.rect.y))
      (compareLex (compareOn (·.rect.width)) (compareOn (·.rect.height)))))))))) :=
  rfl

instance : Std.TransCmp compareScoredCandidates := by
  rw [compareScoredCandidates_lex]
  infer_instance

theorem sourceRank_injective {left right : VisualPacketSource}
    (h : sourceRank left = sourceRank right) : left = right := by
  cases left <;> cases right <;> first | rfl | cases h

theorem compareRect_eq_eq {left right : Rect} : compareRect left right = .eq ↔ left = right := by
  obtain ⟨x, y, width, height⟩ := left
  obtain ⟨x', y', width', height'⟩ := right
  simp only [compareRect, Ordering.then_eq_eq, compare_eq_iff_eq, Rect.mk.injEq]

/-- Evidence that compares equal is equal. -/
theorem compareScoredCandidates_eq_eq {left right : SelectedVisualEvidence}
    (h : compareScoredCandidates left right = .eq) : left = right := by
  simp only [compareScoredCandidates, Ordering.then_eq_eq, compare_eq_iff_eq,
    compareRect_eq_eq] at h
  obtain ⟨hutility, hgain, hconfidence, hrelevance, hcost, hsource, hrect⟩ := h
  cases left
  cases right
  simp only at hutility hgain hconfidence hrelevance hcost hsource hrect
  rw [hutility, hgain, hconfidence, hrelevance, hcost, sourceRank_injective hsource, hrect]

/-- One piece of evidence has at least the priority of another. -/
def AtLeastPriority (left right : SelectedVisualEvidence) : Prop :=
  (compareScoredCandidates left right).isLE = true

theorem AtLeastPriority.antisymm {left right : SelectedVisualEvidence}
    (h : AtLeastPriority left right) (h' : AtLeastPriority right left) : left = right :=
  compareScoredCandidates_eq_eq (Std.OrientedCmp.isLE_antisymm h h')

/-- The candidates by score. -/
theorem pairwise_ordered (scored : List SelectedVisualEvidence) :
    (scored.mergeSort fun left right => (compareScoredCandidates left right).isLE).Pairwise
      AtLeastPriority := by
  refine pairwise_mergeSort (fun _ _ _ => Std.TransCmp.isLE_trans) (fun left right => ?_) _
  rw [Bool.or_eq_true, @Std.OrientedCmp.eq_swap _ compareScoredCandidates _ right left]
  cases compareScoredCandidates left right <;> decide

/-- However the candidates come, they are put in one order. -/
theorem ordered_eq_of_perm {scored scored' : List SelectedVisualEvidence}
    (h : scored.Perm scored') :
    (scored.mergeSort fun left right => (compareScoredCandidates left right).isLE) =
      scored'.mergeSort fun left right => (compareScoredCandidates left right).isLE := by
  refine List.Perm.eq_of_pairwise (fun _ _ _ _ => AtLeastPriority.antisymm)
    (pairwise_ordered scored) (pairwise_ordered scored') ?_
  exact (mergeSort_perm _ _).trans (h.trans (mergeSort_perm _ _).symm)

theorem overlapFractionOfSmaller_comm (left right : Rect) :
    overlapFractionOfSmaller left right = overlapFractionOfSmaller right left := by
  simp only [overlapFractionOfSmaller, min_comm (left.x + left.width),
    min_comm (left.y + left.height), max_comm left.x, max_comm left.y,
    min_comm (left.width * left.height)]

theorem evidenceIsRedundant_comm (left right : SelectedVisualEvidence) :
    evidenceIsRedundant left right = evidenceIsRedundant right left := by
  rw [evidenceIsRedundant, overlapFractionOfSmaller_comm]
  rfl

/-! ## What is selected -/

theorem scoreCandidates_eq_ok {viewport : Nat × Nat} {candidates : List VisualPacketCandidate}
    {scored : List SelectedVisualEvidence} :
    scoreCandidates viewport candidates = .ok scored ↔
      (∀ candidate ∈ candidates, validateCandidate candidate viewport = .ok ()) ∧
      scored = candidates.map (scoreCandidate viewport) := by
  induction candidates generalizing scored with
  | nil =>
    constructor
    · intro h
      cases h
      exact ⟨(fun _ hmem => nomatch hmem), rfl⟩
    · rintro ⟨-, rfl⟩
      rfl
  | cons candidate rest ih =>
    rw [scoreCandidates, bind_eq_ok, forall_mem_cons]
    constructor
    · rintro ⟨_, hvalid, h⟩
      obtain ⟨later, hlater, h⟩ := bind_eq_ok.mp h
      obtain ⟨hrest, rfl⟩ := ih.mp hlater
      cases h
      exact ⟨⟨hvalid, hrest⟩, rfl⟩
    · rintro ⟨⟨hvalid, hrest⟩, rfl⟩
      exact ⟨(), hvalid, bind_eq_ok.mpr ⟨_, ih.mpr ⟨hrest, rfl⟩, rfl⟩⟩

theorem selectVisualPacket_eq_ok {viewport : Nat × Nat} {candidates : List VisualPacketCandidate}
    {budget : VisualPacketBudget} {selection : VisualPacketSelection} :
    selectVisualPacket viewport candidates budget = .ok selection ↔
      ¬ (viewport.1 = 0 ∨ viewport.2 = 0) ∧
      (∀ candidate ∈ candidates, validateCandidate candidate viewport = .ok ()) ∧
      selection = selectScored budget candidates.length
        (candidates.map (scoreCandidate viewport)) := by
  rw [selectVisualPacket, rejectIf_bind_eq_ok, bind_eq_ok]
  refine and_congr_right fun _ => ?_
  constructor
  · rintro ⟨scored, hscored, h⟩
    obtain ⟨hvalid, rfl⟩ := scoreCandidates_eq_ok.mp hscored
    cases h
    exact ⟨hvalid, rfl⟩
  · rintro ⟨hvalid, rfl⟩
    exact ⟨_, scoreCandidates_eq_ok.mpr ⟨hvalid, rfl⟩, rfl⟩

/-- What a selection keeps of scored candidates: no more than the budget, none redundant with
another, and nothing left out that is not redundant with something kept of at least its
priority, unless the budget is exhausted. -/
structure SelectedWell (budget : VisualPacketBudget) (scored : List SelectedVisualEvidence)
    (selected : List SelectedVisualEvidence) : Prop where
  bounded : selected.length ≤ budget.imageRegions
  distinct : selected.Pairwise fun left right => evidenceIsRedundant left right = false
  rejected : ∃ rejected, (selected ++ rejected).Perm scored ∧
    ∀ evidence ∈ rejected, selected.length = budget.imageRegions ∨
      ∃ kept ∈ selected, AtLeastPriority kept evidence ∧
        evidenceIsRedundant kept evidence = true

theorem selectedWell_of_perm {budget : VisualPacketBudget}
    {scored selected selected' : List SelectedVisualEvidence} (hperm : selected.Perm selected')
    (h : SelectedWell budget scored selected) : SelectedWell budget scored selected' := by
  obtain ⟨hbounded, hdistinct, rejected, hrejected, hall⟩ := h
  have hsymm : Std.Symm fun left right : SelectedVisualEvidence =>
      evidenceIsRedundant left right = false :=
    ⟨fun left right hne => (evidenceIsRedundant_comm right left).trans hne⟩
  refine ⟨hperm.length_eq ▸ hbounded, (hperm.pairwise_iff (fun h => hsymm.symm _ _ h)).mp hdistinct,
    rejected, (hperm.symm.append_right rejected).trans hrejected, fun evidence hmem => ?_⟩
  rcases hall evidence hmem with hfull | ⟨kept, hkept, hprior⟩
  · exact .inl (hperm.length_eq ▸ hfull)
  · exact .inr ⟨kept, hperm.mem_iff.mp hkept, hprior⟩

theorem selectScored_well (budget : VisualPacketBudget) (candidates : Nat)
    (scored : List SelectedVisualEvidence) :
    SelectedWell budget scored (selectScored budget candidates scored).selected := by
  rw [selectScored]
  by_cases hnone : budget.imageRegions = 0 ∨ scored = []
  · rw [if_pos hnone]
    refine ⟨Nat.zero_le _, List.Pairwise.nil, scored, .refl _, fun evidence hmem => ?_⟩
    rcases hnone with hzero | hnil
    · exact .inl hzero.symm
    · rw [hnil] at hmem
      cases hmem
  · rw [if_neg hnone]
    refine selectedWell_of_perm (mergeSort_perm _ _).symm ?_
    have hbounded := @length_pick_le _ evidenceIsRedundant budget.imageRegions []
      (scored.mergeSort fun left right => (compareScoredCandidates left right).isLE)
      (Nat.zero_le _)
    obtain ⟨rejected, hperm, hrejected⟩ := @exists_skipped _ evidenceIsRedundant
      budget.imageRegions AtLeastPriority [] _ (fun _ hmem => nomatch hmem)
      (pairwise_ordered scored)
    refine ⟨hbounded, pairwise_pick List.Pairwise.nil, rejected,
      hperm.trans (mergeSort_perm _ _), fun evidence hmem => ?_⟩
    rcases hrejected evidence hmem with hfull | hkept
    · exact .inl (Nat.le_antisymm hbounded hfull)
    · exact .inr hkept

theorem selectScored_perm {budget : VisualPacketBudget} {candidates : Nat}
    {scored scored' : List SelectedVisualEvidence} (h : scored.Perm scored') :
    selectScored budget candidates scored = selectScored budget candidates scored' := by
  have hnil : scored = [] ↔ scored' = [] := by
    rw [← length_eq_zero_iff, ← length_eq_zero_iff, h.length_eq]
  rw [selectScored, selectScored, ordered_eq_of_perm h]
  simp only [hnil]

/-- **The selection of a visual packet**: what it keeps, and that the order of the candidates
matters neither for whether it succeeds nor for what it selects. -/
theorem selectVisualPacket_canonical (viewport : Nat × Nat)
    (candidates : List VisualPacketCandidate) (budget : VisualPacketBudget) :
    (∀ selection, selectVisualPacket viewport candidates budget = .ok selection →
      SelectedWell budget (candidates.map (scoreCandidate viewport)) selection.selected) ∧
    ∀ candidates', candidates.Perm candidates' → ∀ selection,
      selectVisualPacket viewport candidates budget = .ok selection ↔
        selectVisualPacket viewport candidates' budget = .ok selection := by
  refine ⟨fun selection h => ?_, fun candidates' hperm selection => ?_⟩
  · obtain ⟨-, -, rfl⟩ := selectVisualPacket_eq_ok.mp h
    exact selectScored_well _ _ _
  · rw [selectVisualPacket_eq_ok, selectVisualPacket_eq_ok, hperm.length_eq,
      selectScored_perm (hperm.map (scoreCandidate viewport))]
    simp only [hperm.mem_iff]

/-- Of two faults the first is reported. -/
theorem faults_reported_in_order :
    ¬ ∀ (viewport : Nat × Nat) (candidates candidates' : List VisualPacketCandidate)
      (budget : VisualPacketBudget), candidates.Perm candidates' →
        selectVisualPacket viewport candidates budget =
          selectVisualPacket viewport candidates' budget := by
  intro h
  have hsame := h (390, 844)
    [⟨.changedRegion, ⟨0, 0, 10, 10⟩, 1001, 0, 0⟩, ⟨.changedRegion, ⟨0, 0, 0, 10⟩, 0, 0, 0⟩]
    [⟨.changedRegion, ⟨0, 0, 0, 10⟩, 0, 0, 0⟩, ⟨.changedRegion, ⟨0, 0, 10, 10⟩, 1001, 0, 0⟩]
    ⟨⟨500, .normal⟩, 1⟩ (List.Perm.swap _ _ _)
  revert hsame
  decide +kernel

end Localview
