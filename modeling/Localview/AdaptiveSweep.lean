import Localview.VisualImage
import Localview.DistinctSort

/-! # Adaptive sweeps

The widths that a responsive sweep visits first: the ends of the range and its anchors, thinned
out evenly when they are too many, and filled up with the candidates that are farthest from
what is selected when they are too few.

Widths are natural numbers; the ones that are subtracted are in order.
-/
namespace Localview
open EarlyReturn DistinctSort List

/-- How a planned sweep ends that has no widths: an error of `ResponsiveError`, or an index out
of bounds. -/
inductive SweepStop
  | invalidAdaptiveRange
  | invalidAdaptiveProbeCap
  | panicked
  deriving DecidableEq

def defaultAdaptiveProbeCap : Nat := 12

/-- The anchors in the range, then its ends. -/
def anchorsAndEnds (min max : Nat) (anchors : List Nat) : List Nat :=
  anchors.filter (fun width => min ≤ width ∧ width ≤ max) ++ [min, max]

/-- The midpoints of neighbours more than 160 apart. -/
def midpoints : List Nat → List Nat
  | left :: right :: rest =>
    if 160 < right - left then (left + (right - left) / 2) :: midpoints (right :: rest)
    else midpoints (right :: rest)
  | _ => []

def adaptiveSweep (min max : Nat) (anchors : List Nat) : List Nat :=
  let widths := sortDedup (anchorsAndEnds min max anchors)
  sortDedup (widths ++ midpoints widths)

/-- The position of a slot among `last + 1` widths that are thinned out to a cap. -/
def slotIndex (initialCap last slot : Nat) : Except SweepStop Nat := do
  rejectIf (usizeMax < slot * last) .invalidAdaptiveProbeCap
  return slot * last / (initialCap - 1)

def pickSlot (initialCap : Nat) (source : List Nat) (slot : Nat) : Except SweepStop Nat := do
  let index ← slotIndex initialCap (source.length - 1) slot
  okOr source[index]? .panicked

def thinOut (initialCap : Nat) (selected : List Nat) : Except SweepStop (List Nat) :=
  if initialCap < selected.length then do
    let bounded ← (List.range initialCap).mapM (pickSlot initialCap selected)
    return sortDedup bounded
  else return selected

/-- `u32::abs_diff` -/
def widthDiff (a b : Nat) : Nat := if a < b then b - a else a - b

/-- The distance to what is selected. -/
def nearest (selected : List Nat) (candidate : Nat) : Nat :=
  ((selected.map fun width => widthDiff width candidate).min?).getD 0

/-- The order of the keys `(nearest, Reverse(candidate))`. -/
def keyLe (selected : List Nat) (a b : Nat) : Bool :=
  nearest selected a < nearest selected b ∨
    nearest selected a = nearest selected b ∧ b ≤ a

/-- `Iterator::max_by_key`: of the elements with the greatest key the last one. -/
def maxByKey (le : Nat → Nat → Bool) : List Nat → Option Nat
  | [] => none
  | a :: rest => some (rest.foldl (fun best b => if le best b then b else best) a)

def nextWidth (candidates selected : List Nat) : Option Nat :=
  maxByKey (keyLe selected) (candidates.filter (· ∉ selected))

/-- The loop of `bounded_adaptive_sweep`: each turn selects one width more. -/
def fillUp (candidates : List Nat) : (missing : Nat) → (selected : List Nat) → List Nat
  | 0, selected => selected
  | missing + 1, selected =>
    match nextWidth candidates selected with
    | none => selected
    | some next => fillUp candidates missing ((selected ++ [next]).insertionSort (· ≤ ·))

def boundedAdaptiveSweep (min max : Nat) (anchors : List Nat) (initialCap : Nat) :
    Except SweepStop (List Nat) := do
  rejectIf (min = 0 ∨ max = 0 ∨ max < min) .invalidAdaptiveRange
  rejectIf (¬(2 ≤ initialCap ∧ initialCap ≤ defaultAdaptiveProbeCap)) .invalidAdaptiveProbeCap
  let candidates := adaptiveSweep min max anchors
  let selected ← thinOut initialCap (sortDedup (anchorsAndEnds min max anchors))
  let filled := fillUp candidates (initialCap - selected.length) selected
  return filled.destutter (· ≠ ·)

/-! ## The candidates -/

section
variable {min max : Nat} {anchors l : List Nat} {w a : Nat}

theorem mem_anchorsAndEnds :
    w ∈ anchorsAndEnds min max anchors ↔
      w ∈ anchors ∧ min ≤ w ∧ w ≤ max ∨ w = min ∨ w = max := by
  simp [anchorsAndEnds]

theorem within_of_mem_anchorsAndEnds (hrange : min ≤ max)
    (h : w ∈ anchorsAndEnds min max anchors) : min ≤ w ∧ w ≤ max := by
  rcases mem_anchorsAndEnds.mp h with ⟨-, hw⟩ | rfl | rfl
  · exact hw
  · exact ⟨Nat.le_refl w, hrange⟩
  · exact ⟨hrange, Nat.le_refl w⟩

/-- A midpoint lies between two of the widths. -/
theorem between_of_mem_midpoints (h : w ∈ midpoints l) :
    ∃ left ∈ l, ∃ right ∈ l, left ≤ w ∧ w ≤ right := by
  induction l with
  | nil => cases h
  | cons left rest ih =>
    cases rest with
    | nil => cases h
    | cons right rest =>
      have hlater : w ∈ midpoints (right :: rest) →
          ∃ a ∈ left :: right :: rest, ∃ b ∈ left :: right :: rest, a ≤ w ∧ w ≤ b := by
        intro hw
        obtain ⟨a, ha, b, hb, hbetween⟩ := ih hw
        exact ⟨a, mem_cons_of_mem _ ha, b, mem_cons_of_mem _ hb, hbetween⟩
      by_cases hfar : 160 < right - left
      · rw [midpoints, if_pos hfar] at h
        rcases mem_cons.mp h with rfl | hw
        · exact ⟨left, by simp, right, by simp, by omega, by omega⟩
        · exact hlater hw
      · rw [midpoints, if_neg hfar] at h
        exact hlater h

theorem mem_adaptiveSweep_of_mem (h : w ∈ anchorsAndEnds min max anchors) :
    w ∈ adaptiveSweep min max anchors := by
  simp [adaptiveSweep, h]

theorem within_of_mem_adaptiveSweep (hrange : min ≤ max)
    (h : w ∈ adaptiveSweep min max anchors) : min ≤ w ∧ w ≤ max := by
  simp only [adaptiveSweep, mem_sortDedup, mem_append] at h
  rcases h with h | h
  · exact within_of_mem_anchorsAndEnds hrange h
  · obtain ⟨left, hleft, right, hright, hle, hge⟩ := between_of_mem_midpoints h
    rw [mem_sortDedup] at hleft hright
    have hl := within_of_mem_anchorsAndEnds hrange hleft
    have hr := within_of_mem_anchorsAndEnds hrange hright
    omega

end

/-! ## What each phase keeps -/

/-- Some of the candidates in increasing order, the ends of the range among them. -/
structure SpanningSelection (min max : Nat) (candidates selected : List Nat) : Prop where
  increasing : selected.Pairwise (· < ·)
  has_min : min ∈ selected
  has_max : max ∈ selected
  among : ∀ w ∈ selected, w ∈ candidates

section
variable {min max : Nat} {candidates selected anchors : List Nat} {w : Nat}

theorem spanningSelection_collect (min max : Nat) (anchors : List Nat) :
    SpanningSelection min max (adaptiveSweep min max anchors)
      (sortDedup (anchorsAndEnds min max anchors)) where
  increasing := pairwise_sortDedup _
  has_min := mem_sortDedup.mpr (mem_anchorsAndEnds.mpr (.inr (.inl rfl)))
  has_max := mem_sortDedup.mpr (mem_anchorsAndEnds.mpr (.inr (.inr rfl)))
  among _ hw := mem_adaptiveSweep_of_mem (mem_sortDedup.mp hw)

theorem mapM_eq_ok {α β ε : Type} {f : α → Except ε β} {l : List α} {ys : List β}
    (h : l.mapM f = .ok ys) : List.Forall₂ (fun x y => f x = .ok y) l ys := by
  induction l generalizing ys with
  | nil =>
    cases h
    exact .nil
  | cons x l ih =>
    rw [mapM_cons] at h
    obtain ⟨y, hy, h⟩ := bind_eq_ok.mp h
    obtain ⟨rest, hrest, h⟩ := bind_eq_ok.mp h
    cases h
    exact .cons hy (ih hrest)

theorem pickSlot_eq_ok {initialCap slot : Nat} (h : pickSlot initialCap selected slot = .ok w) :
    selected[slot * (selected.length - 1) / (initialCap - 1)]? = some w := by
  simp only [pickSlot, slotIndex, bind_eq_ok, rejectIf_eq_ok, okOr_eq_ok] at h
  obtain ⟨index, ⟨-, -, hindex⟩, h⟩ := h
  cases hindex
  exact h

theorem exists_mapM_eq_ok {α β ε : Type} {f : α → Except ε β} {l : List α}
    (h : ∀ x ∈ l, ∃ y, f x = .ok y) : ∃ ys, l.mapM f = .ok ys := by
  induction l with
  | nil => exact ⟨[], rfl⟩
  | cons x l ih =>
    obtain ⟨y, hy⟩ := h x mem_cons_self
    obtain ⟨ys, hys⟩ := ih fun a ha => h a (mem_cons_of_mem x ha)
    exact ⟨y :: ys, mapM_cons.trans (bind_eq_ok.mpr ⟨y, hy, bind_eq_ok.mpr ⟨ys, hys, rfl⟩⟩)⟩

/-- There are no more widths than the range has. -/
theorem length_le_of_increasing (h : selected.Pairwise (· < ·)) (hle : ∀ w ∈ selected, w ≤ max) :
    selected.length ≤ max + 1 := by
  have hnodup : selected.Nodup := h.imp fun hlt => Nat.ne_of_lt hlt
  have hwithin : selected ⊆ range (max + 1) := fun w hw =>
    mem_range.mpr (Nat.lt_succ_of_le (hle w hw))
  simpa using (subperm_of_subset hnodup hwithin).length_le

/-- Thinning out `u32` widths neither overflows nor leaves their list. -/
theorem exists_thinOut_eq_ok {initialCap : Nat} (hcap : initialCap ≤ defaultAdaptiveProbeCap)
    (hlength : selected.length ≤ u32Max + 1) :
    ∃ thinned, thinOut initialCap selected = .ok thinned := by
  by_cases hmany : initialCap < selected.length
  · have hpick : ∀ slot ∈ range initialCap, ∃ w, pickSlot initialCap selected slot = .ok w := by
      intro slot hslot
      have hlt : slot < initialCap := mem_range.mp hslot
      have hfits : slot * (selected.length - 1) ≤ defaultAdaptiveProbeCap * u32Max :=
        Nat.mul_le_mul (by omega) (by omega)
      have hindex : slot * (selected.length - 1) / (initialCap - 1) ≤ selected.length - 1 :=
        Nat.div_le_of_le_mul (Nat.mul_le_mul_right _ (by omega))
      have hin : slot * (selected.length - 1) / (initialCap - 1) < selected.length := by omega
      have hroom : ¬usizeMax < slot * (selected.length - 1) :=
        Nat.not_lt.mpr (hfits.trans (by decide))
      refine ⟨_, bind_eq_ok.mpr ⟨_, ?_, okOr_eq_ok.mpr (getElem?_eq_getElem hin)⟩⟩
      exact rejectIf_bind_eq_ok.mpr ⟨hroom, rfl⟩
    obtain ⟨bounded, hbounded⟩ := exists_mapM_eq_ok hpick
    exact ⟨_, (if_pos hmany).trans (bind_eq_ok.mpr ⟨bounded, hbounded, rfl⟩)⟩
  · exact ⟨selected, if_neg hmany⟩

/-- The first of an increasing list is its least element. -/
theorem head_of_increasing (h : selected.Pairwise (· < ·)) (hmin : min ∈ selected)
    (hle : ∀ w ∈ selected, min ≤ w) : selected[0]? = some min := by
  cases selected with
  | nil => cases hmin
  | cons a rest =>
    rcases mem_cons.mp hmin with rfl | hrest
    · rfl
    · have hlt := (pairwise_cons.mp h).1 min hrest
      have hge := hle a mem_cons_self
      omega

theorem last_of_increasing (h : selected.Pairwise (· < ·)) (hmax : max ∈ selected)
    (hle : ∀ w ∈ selected, w ≤ max) : selected[selected.length - 1]? = some max := by
  obtain ⟨i, hi, rfl⟩ := mem_iff_getElem.mp hmax
  have hlast : i = selected.length - 1 := by
    by_contra hne
    have hlt : i < selected.length - 1 := by omega
    have hin : selected.length - 1 < selected.length := by omega
    have hgt := pairwise_iff_getElem.mp h i (selected.length - 1) hi hin hlt
    have hge := hle _ (getElem_mem hin)
    omega
  rw [← hlast, getElem?_eq_getElem hi]

/-- Thinning out keeps the ends: the first and the last slot are theirs. -/
theorem SpanningSelection.thinOut {initialCap : Nat} {thinned : List Nat}
    (h : SpanningSelection min max candidates selected)
    (hmin : ∀ w ∈ selected, min ≤ w) (hmax : ∀ w ∈ selected, w ≤ max) (hcap : 2 ≤ initialCap)
    (hok : thinOut initialCap selected = .ok thinned) :
    SpanningSelection min max candidates thinned ∧ thinned.length ≤ initialCap ∧
      (selected.length ≤ initialCap → thinned = selected) := by
  by_cases hmany : initialCap < selected.length
  · rw [Localview.thinOut, if_pos hmany] at hok
    obtain ⟨bounded, hpicks, hok⟩ := bind_eq_ok.mp hok
    cases hok
    have hforall := mapM_eq_ok hpicks
    have hlength : bounded.length = initialCap := by
      rw [← hforall.length_eq, length_range]
    -- a slot's width is the one at its position
    have hslot (slot : Nat) (hs : slot < initialCap) : ∃ w, bounded[slot]? = some w ∧
        selected[slot * (selected.length - 1) / (initialCap - 1)]? = some w := by
      obtain ⟨w, hw⟩ : ∃ w, bounded[slot]? = some w :=
        ⟨_, getElem?_eq_getElem (by omega)⟩
      have hpick := (List.forall₂_iff_get.mp hforall).2 slot (by simpa using hs) (by omega)
      rw [getElem?_eq_some_iff] at hw
      obtain ⟨hin, rfl⟩ := hw
      simp only [get_eq_getElem, getElem_range] at hpick
      exact ⟨_, getElem?_eq_getElem hin, pickSlot_eq_ok hpick⟩
    refine ⟨⟨pairwise_sortDedup _, ?_, ?_, ?_⟩, ?_, fun hle => by omega⟩
    · obtain ⟨w, hw, hsource⟩ := hslot 0 (by omega)
      rw [Nat.zero_mul, Nat.zero_div, head_of_increasing h.increasing h.has_min hmin] at hsource
      cases hsource
      exact mem_sortDedup.mpr (mem_of_getElem? hw)
    · obtain ⟨w, hw, hsource⟩ := hslot (initialCap - 1) (by omega)
      rw [Nat.mul_div_cancel_left _ (by omega),
        last_of_increasing h.increasing h.has_max hmax] at hsource
      cases hsource
      exact mem_sortDedup.mpr (mem_of_getElem? hw)
    · intro w hw
      obtain ⟨slot, hs, rfl⟩ := mem_iff_getElem.mp (mem_sortDedup.mp hw)
      obtain ⟨w, hw, hsource⟩ := hslot slot (by omega)
      rw [getElem?_eq_getElem hs] at hw
      cases hw
      exact h.among _ (mem_of_getElem? hsource)
    · rw [length_sortDedup]
      exact hlength ▸ (dedup_sublist bounded).length_le
  · rw [Localview.thinOut, if_neg hmany] at hok
    cases hok
    exact ⟨h, by omega, fun _ => rfl⟩

theorem mem_of_maxByKey {le : Nat → Nat → Bool} {l : List Nat}
    (h : maxByKey le l = some w) : w ∈ l := by
  cases l with
  | nil => cases h
  | cons a rest =>
    obtain rfl := Option.some.inj h
    clear h
    induction rest generalizing a with
    | nil => exact mem_cons_self
    | cons b rest ih =>
      rw [foldl_cons]
      by_cases hle : le a b
      · rw [if_pos hle]
        exact mem_cons_of_mem a (ih b)
      · rw [if_neg hle]
        rcases mem_cons.mp (ih a) with heq | hrest
        · rw [heq]
          exact mem_cons_self
        · exact mem_cons_of_mem a (mem_cons_of_mem b hrest)

theorem nextWidth_eq_some (h : nextWidth candidates selected = some w) :
    w ∈ candidates ∧ w ∉ selected := by
  have hmem := mem_of_maxByKey h
  simpa using hmem

theorem nextWidth_eq_none (h : nextWidth candidates selected = none) :
    ∀ c ∈ candidates, c ∈ selected := by
  intro c hc
  by_contra hnot
  have hmem : c ∈ candidates.filter (· ∉ selected) := by simpa using ⟨hc, hnot⟩
  rw [nextWidth] at h
  cases hl : candidates.filter (· ∉ selected) with
  | nil =>
    rw [hl] at hmem
    cases hmem
  | cons a rest =>
    rw [hl] at h
    cases h

theorem SpanningSelection.select (h : SpanningSelection min max candidates selected)
    (hnext : nextWidth candidates selected = some w) :
    SpanningSelection min max candidates ((selected ++ [w]).insertionSort (· ≤ ·)) := by
  obtain ⟨hcandidate, hnew⟩ := nextWidth_eq_some hnext
  have hnodup : (selected ++ [w]).Nodup := by
    rw [nodup_append]
    refine ⟨h.increasing.imp fun hlt => Nat.ne_of_lt hlt, nodup_singleton w, ?_⟩
    rintro a ha b hb rfl
    exact hnew (mem_singleton.mp hb ▸ ha)
  refine ⟨pairwise_lt_insertionSort hnodup, ?_, ?_, ?_⟩
  · simp [h.has_min]
  · simp [h.has_max]
  · intro c hc
    rw [mem_insertionSort, mem_append, mem_singleton] at hc
    rcases hc with hc | rfl
    · exact h.among c hc
    · exact hcandidate

/-- What the loop leaves: the selection with more candidates, as many as were missing, or all. -/
theorem SpanningSelection.fillUp (missing : Nat)
    (h : SpanningSelection min max candidates selected) :
    SpanningSelection min max candidates (fillUp candidates missing selected) ∧
      (∀ w ∈ selected, w ∈ Localview.fillUp candidates missing selected) ∧
      (Localview.fillUp candidates missing selected).length ≤ selected.length + missing ∧
      ((Localview.fillUp candidates missing selected).length < selected.length + missing →
        ∀ c ∈ candidates, c ∈ Localview.fillUp candidates missing selected) := by
  induction missing generalizing selected with
  | zero => exact ⟨h, fun _ hw => hw, Nat.le_refl _, fun hlt => absurd hlt (Nat.lt_irrefl _)⟩
  | succ missing ih =>
    cases hnext : nextWidth candidates selected with
    | none =>
      have hfill : Localview.fillUp candidates (missing + 1) selected = selected := by
        rw [Localview.fillUp, hnext]
      rw [hfill]
      exact ⟨h, fun _ hw => hw, Nat.le_add_right _ _, fun _ => nextWidth_eq_none hnext⟩
    | some next =>
      have hfill : Localview.fillUp candidates (missing + 1) selected =
          Localview.fillUp candidates missing ((selected ++ [next]).insertionSort (· ≤ ·)) := by
        rw [Localview.fillUp, hnext]
      have hlength : ((selected ++ [next]).insertionSort (· ≤ ·)).length = selected.length + 1 := by
        simp
      obtain ⟨hspan, hkept, hle, hall⟩ := ih (h.select hnext)
      rw [hfill]
      rw [hlength] at hle hall
      refine ⟨hspan, fun w hw => hkept w ?_, by omega, fun hlt => hall (by omega)⟩
      simp [hw]

end

/-! ## The sweep -/

/-- What a sweep's widths are like. -/
structure SpanningSweep (min max : Nat) (anchors : List Nat) (initialCap : Nat)
    (widths : List Nat) : Prop where
  increasing : widths.Pairwise (· < ·)
  within : ∀ w ∈ widths, min ≤ w ∧ w ≤ max
  has_min : min ∈ widths
  has_max : max ∈ widths
  capped : widths.length ≤ initialCap
  /-- Every anchor in the range is there when they all fit with the ends. -/
  anchored : (anchorsAndEnds min max anchors).dedup.length ≤ initialCap →
    ∀ a ∈ anchors, min ≤ a → a ≤ max → a ∈ widths
  exhausted : widths.length < initialCap →
    ∀ c ∈ adaptiveSweep min max anchors, c ∈ widths

/-- The widths of an accepted sweep. -/
theorem spanningSweep_of_eq_ok {min max : Nat} {anchors : List Nat} {initialCap : Nat}
    {widths : List Nat} (h : boundedAdaptiveSweep min max anchors initialCap = .ok widths) :
    SpanningSweep min max anchors initialCap widths := by
  simp only [boundedAdaptiveSweep, rejectIf_bind_eq_ok, not_or, not_not] at h
  obtain ⟨⟨-, -, hrange⟩, ⟨hcap, -⟩, h⟩ := h
  obtain ⟨selected, hthin, h⟩ := bind_eq_ok.mp h
  have hle : min ≤ max := Nat.not_lt.mp hrange
  have hwithin : ∀ w ∈ sortDedup (anchorsAndEnds min max anchors), min ≤ w ∧ w ≤ max :=
    fun w hw => within_of_mem_anchorsAndEnds hle (mem_sortDedup.mp hw)
  have hcollect := spanningSelection_collect min max anchors
  obtain ⟨hselected, hbounded, hkept⟩ := hcollect.thinOut (fun w hw => (hwithin w hw).1)
    (fun w hw => (hwithin w hw).2) hcap hthin
  obtain ⟨hfilled, hmore, hlength, hall⟩ :=
    hselected.fillUp (initialCap - selected.length)
  have hsum : selected.length + (initialCap - selected.length) = initialCap := by omega
  rw [hsum] at hlength hall
  -- the last `dedup` finds no repetition
  obtain rfl : fillUp (adaptiveSweep min max anchors) (initialCap - selected.length) selected =
      widths := by
    have hne := hfilled.increasing.imp (fun hlt => Nat.ne_of_lt hlt)
    rw [destutter_of_isChain _ _ hne.isChain] at h
    exact Except.ok.inj h
  refine ⟨hfilled.increasing, fun w hw => ?_, hfilled.has_min, hfilled.has_max, hlength, ?_, hall⟩
  · exact within_of_mem_adaptiveSweep hle (hfilled.among w hw)
  · intro hfits a ha hmin hmax
    rw [← length_sortDedup] at hfits
    refine hmore a ?_
    rw [hkept hfits]
    exact mem_sortDedup.mpr (mem_anchorsAndEnds.mpr (.inl ⟨ha, hmin, hmax⟩))

/-- **A sweep is accepted where its range and its cap are, and every accepted sweep is bounded
and spans its range.** -/
theorem boundedAdaptiveSweep_spanning {min max : Nat} {anchors : List Nat} {initialCap : Nat}
    (hu32 : max ≤ u32Max) :
    (0 < min ∧ min ≤ max ∧ 2 ≤ initialCap ∧ initialCap ≤ defaultAdaptiveProbeCap ↔
      ∃ widths, boundedAdaptiveSweep min max anchors initialCap = .ok widths) ∧
    ∀ widths, boundedAdaptiveSweep min max anchors initialCap = .ok widths →
      SpanningSweep min max anchors initialCap widths := by
  refine ⟨⟨?_, ?_⟩, fun widths => spanningSweep_of_eq_ok⟩
  · rintro ⟨hmin, hrange, hcap, hcap'⟩
    have hcollect := spanningSelection_collect min max anchors
    have hlength := length_le_of_increasing hcollect.increasing fun w hw =>
      (within_of_mem_anchorsAndEnds hrange (mem_sortDedup.mp hw)).2
    obtain ⟨selected, hthin⟩ := exists_thinOut_eq_ok hcap' (hlength.trans (by omega))
    exact ⟨_, rejectIf_bind_eq_ok.mpr ⟨by omega, rejectIf_bind_eq_ok.mpr
      ⟨not_not.mpr ⟨hcap, hcap'⟩, bind_eq_ok.mpr ⟨selected, hthin, rfl⟩⟩⟩⟩
  · rintro ⟨widths, h⟩
    simp only [boundedAdaptiveSweep, rejectIf_bind_eq_ok, not_or, not_not] at h
    exact ⟨by omega, by omega, h.2.1⟩

/-- Six anchors and the ends of their range, thinned out to four widths. -/
theorem boundedAdaptiveSweep_thinned :
    boundedAdaptiveSweep 320 1920 [360, 390, 768, 1024, 1280, 1440] 4 =
      .ok [320, 390, 1024, 1920] ∧
    SpanningSweep 320 1920 [360, 390, 768, 1024, 1280, 1440] 4 [320, 390, 1024, 1920] :=
  ⟨by decide, (boundedAdaptiveSweep_spanning (by decide)).2 _ (by decide)⟩

end Localview
