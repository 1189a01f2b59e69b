import Mathlib.Algebra.BigOperators.Group.List.Basic
import Mathlib.Data.Prod.Lex
import Localview.MergingWorklist
import Localview.ResourceGovernor
import Localview.VisualImage

/-! # Planning the changed regions

Two frames are compared pixel by pixel and tile by tile; tiles with a change are merged into
regions, which are given in CSS pixels.  A region set aside may be overlapped by one that
grows later.

The CSS sizes and ratios are exact.
-/
namespace Localview
open EarlyReturn List Function MergingWorklist

/-- A rectangle of pixels. -/
structure DiffRegion where
  (x y width height changedPixels : Nat)

/-- How far two frames differ. -/
structure VisualDiff where
  changedPixels : Nat
  changedRatio : ℚ
  boundingBox : Option DiffRegion

/-- The bounds of a plan. -/
structure ChangedRegionPolicy where
  (tilePx threshold maxRegions : Nat)
  viewportFallbackRatio : ℚ

/-- What is to be captured again. -/
inductive ChangedRegionPlan
  | unchanged
  | regions (regions : List Rect) (changedRatio : ℚ)
  | viewport (changedRatio : ℚ)
  deriving DecidableEq

/-- `u8::abs_diff` -/
def absDiff (a b : UInt8) : Nat := max a.toNat b.toNat - min a.toNat b.toNat

section
variable (before after : RgbaImage)

/-- The greatest difference of a pixel's four bytes. -/
def channelDelta (pixel : Nat) : Nat :=
  ((List.range 4).map fun c =>
    absDiff (before.data.getD (pixel * 4 + c) 0) (after.data.getD (pixel * 4 + c) 0)).max?.getD 0

/-- Whether a pixel is over the threshold. -/
def isChanged (threshold pixel : Nat) : Bool :=
  threshold < channelDelta before after pixel

/-- What `pixel_diff` counts and bounds. -/
structure ChangeExtent where
  (changed minX minY maxX maxY : Nat)

def ChangeExtent.note (width : Nat) (extent : ChangeExtent) (pixel : Nat) : ChangeExtent where
  changed := extent.changed + 1
  minX := min extent.minX (pixel % width)
  minY := min extent.minY (pixel / width)
  maxX := max extent.maxX (pixel % width)
  maxY := max extent.maxY (pixel / width)

/-- Both frames are valid and of one size. -/
def checkFrames : Except VisualError Unit := do
  before.validate
  after.validate
  rejectIf (before.width ≠ after.width ∨ before.height ≠ after.height) .dimensionMismatch

def changeExtent (threshold : Nat) : ChangeExtent :=
  (List.range (before.width * before.height)).foldl
    (fun extent pixel =>
      if isChanged before after threshold pixel then extent.note before.width pixel else extent)
    ⟨0, u32Max, u32Max, 0, 0⟩

/-- The diff of two frames that passed the checks. -/
def diffOf (threshold : Nat) : VisualDiff :=
  let extent := changeExtent before after threshold
  { changedPixels := extent.changed
    changedRatio := extent.changed / max ((before.width : ℚ) * before.height) 1
    boundingBox :=
      if 0 < extent.changed then
        some ⟨extent.minX, extent.minY, extent.maxX - extent.minX + 1,
          extent.maxY - extent.minY + 1, extent.changed⟩
      else none }

def pixelDiff (threshold : Nat) : Except VisualError VisualDiff := do
  checkFrames before after
  return diffOf before after threshold

/-- The values of a counter that is raised by the tile while it is below the size. -/
def tileStarts (tile size : Nat) : List Nat :=
  (List.range ((size + tile - 1) / tile)).map (· * tile)

/-- One tile, unless nothing changed in it. -/
def tileAt (tile threshold y x : Nat) : Option DiffRegion :=
  let w := min tile (before.width - x)
  let h := min tile (before.height - y)
  let changed := (pixelsIn before.width x y w h).countP (isChanged before after threshold)
  if 0 < changed then some ⟨x, y, w, h, changed⟩ else none

/-- The changed tiles of two frames that passed the checks. -/
def tilesOf (tile threshold : Nat) : List DiffRegion :=
  let tile := max tile 1
  (tileStarts tile before.height).flatMap fun y =>
    (tileStarts tile before.width).filterMap (tileAt before after tile threshold y)

def changedTiles (tile threshold : Nat) :
    Except VisualError (List DiffRegion) := do
  checkFrames before after
  return tilesOf before after tile threshold

/-- `u32::saturating_add` -/
def addU32 (a b : Nat) : Nat := min (a + b) u32Max

def regionsOverlapOrEdgeTouch (left right : DiffRegion) : Bool :=
  let leftRight := addU32 left.x left.width
  let leftBottom := addU32 left.y left.height
  let rightRight := addU32 right.x right.width
  let rightBottom := addU32 right.y right.height
  let xOverlap : Bool := left.x < rightRight && right.x < leftRight
  let yOverlap : Bool := left.y < rightBottom && right.y < leftBottom
  let xTouch : Bool := leftRight = right.x || rightRight = left.x
  let yTouch : Bool := leftBottom = right.y || rightBottom = left.y
  (xOverlap && yOverlap) || (xTouch && yOverlap) || (yTouch && xOverlap)

def mergeRegions (left right : DiffRegion) : DiffRegion :=
  let x := min left.x right.x
  let y := min left.y right.y
  let rightEdge := max (addU32 left.x left.width) (addU32 right.x right.width)
  let bottomEdge := max (addU32 left.y left.height) (addU32 right.y right.height)
  { x := x, y := y, width := rightEdge - x, height := bottomEdge - y
    changedPixels := saturatingAdd left.changedPixels right.changedPixels }

/-- `sort_by_key(|region| (region.y, region.x))` -/
def sortRegions (regions : List DiffRegion) : List DiffRegion :=
  regions.insertionSort fun a b => toLex (a.y, a.x) ≤ toLex (b.y, b.x)

def coalesceRegions (pending : List DiffRegion) : List DiffRegion :=
  let pending := sortRegions pending
  sortRegions
    (mergeAll regionsOverlapOrEdgeTouch mergeRegions pending.length pending)

/-- A region in CSS pixels. -/
def cssRegion (scaleX scaleY : ℚ) (region : DiffRegion) : Rect where
  x := region.x * scaleX
  y := region.y * scaleY
  width := region.width * scaleX
  height := region.height * scaleY

def planChangedCssRegions (cssViewport : ℚ × ℚ)
    (policy : ChangedRegionPolicy) : Except VisualError ChangedRegionPlan := do
  checkFrames before after
  let (cssWidth, cssHeight) := cssViewport
  rejectIf (cssWidth ≤ 0 ∨ cssHeight ≤ 0) .invalidViewport
  rejectIf (policy.tilePx = 0 ∨ policy.maxRegions = 0 ∨ policy.viewportFallbackRatio ≤ 0 ∨
    1 < policy.viewportFallbackRatio) .invalidChangePolicy
  let diff ← pixelDiff before after policy.threshold
  if diff.changedPixels = 0 then
    return .unchanged
  else if policy.viewportFallbackRatio ≤ diff.changedRatio then
    return .viewport diff.changedRatio
  else do
    let tiles ← changedTiles before after policy.tilePx policy.threshold
    let regions := coalesceRegions tiles
    if policy.maxRegions < regions.length then
      return .viewport diff.changedRatio
    else
      return .regions
        (regions.map (cssRegion (cssWidth / before.width) (cssHeight / before.height)))
        diff.changedRatio

/-! ## Tiles -/

/-- The tiles along one side, one after the other, are the side. -/
theorem flatMap_range_tiles (tile size k : Nat) :
    ((List.range k).flatMap fun i => List.range' (i * tile) (min tile (size - i * tile))) =
      List.range (min (k * tile) size) := by
  induction k with
  | zero => rw [Nat.zero_mul, Nat.zero_min]; rfl
  | succ k ih =>
    rw [range_succ, flatMap_append, ih, flatMap_singleton, Nat.succ_mul]
    by_cases hlt : k * tile < size
    · have hmin : min (k * tile) size = k * tile := Nat.min_eq_left (Nat.le_of_lt hlt)
      have hsum : min (k * tile + tile) size = k * tile + min tile (size - k * tile) := by omega
      rw [hmin, hsum, range_eq_range', range_eq_range']
      have happend := @List.range'_append_1 0 (k * tile) (min tile (size - k * tile))
      rw [Nat.zero_add] at happend
      exact happend
    · have hnone : min tile (size - k * tile) = 0 := by omega
      have hmin : min (k * tile + tile) size = min (k * tile) size := by omega
      rw [hnone, hmin, List.range'_zero, append_nil]

theorem flatMap_tileStarts {tile : Nat} (htile : 0 < tile) (size : Nat) :
    ((tileStarts tile size).flatMap fun start => List.range' start (min tile (size - start))) =
      List.range size := by
  have hcover : size ≤ (size + tile - 1) / tile * tile := by
    have hdiv := Nat.div_add_mod (size + tile - 1) tile
    have hmod := Nat.mod_lt (size + tile - 1) htile
    rw [Nat.mul_comm] at hdiv
    omega
  rw [tileStarts, flatMap_map, flatMap_range_tiles, Nat.min_eq_right hcover]

theorem lt_of_mem_tileStarts {tile size start : Nat} (htile : 0 < tile)
    (h : start ∈ tileStarts tile size) : start < size := by
  obtain ⟨i, hi, rfl⟩ := mem_map.mp h
  rw [mem_range] at hi
  have hle := Nat.div_mul_le_self (size + tile - 1) tile
  have hmul := Nat.mul_le_mul_right tile (Nat.succ_le_of_lt hi)
  rw [Nat.succ_mul] at hmul
  omega

/-- Every place along a side is on one of the tiles. -/
theorem exists_tileStart {tile size x : Nat} (htile : 0 < tile) (h : x < size) :
    ∃ start ∈ tileStarts tile size, start ≤ x ∧ x < start + min tile (size - start) := by
  have hmem := mem_range.mpr h
  rw [← flatMap_tileStarts htile] at hmem
  obtain ⟨start, hstart, hx⟩ := mem_flatMap.mp hmem
  exact ⟨start, hstart, mem_range'_1.mp hx⟩

theorem sum_map_comm {α β : Type} (f : α → β → Nat) (as : List α) (bs : List β) :
    (as.map fun a => (bs.map (f a)).sum).sum =
      (bs.map fun b => (as.map fun a => f a b).sum).sum := by
  induction as with
  | nil => simp
  | cons a as ih =>
    simp only [map_cons, sum_cons]
    rw [ih, sum_map_add]

/-- The rows of an image, one after the other, are its pixels. -/
theorem flatMap_rows (width height : Nat) :
    ((List.range height).flatMap fun y => (List.range width).map fun x => y * width + x) =
      List.range (width * height) := by
  induction height with
  | zero => rfl
  | succ height ih =>
    rw [range_succ, flatMap_append, ih, flatMap_singleton, Nat.mul_succ,
      range_add, Nat.mul_comm width height]

theorem sum_flatMap {α : Type} (f : α → List Nat) (as : List α) :
    (as.flatMap f).sum = (as.map fun a => (f a).sum).sum := by
  induction as with
  | nil => rfl
  | cons a as ih =>
    rw [flatMap_cons, sum_append, ih, map_cons, sum_cons]

theorem countP_pixelsIn (p : Nat → Bool) (imageWidth x y width height : Nat) :
    (pixelsIn imageWidth x y width height).countP p = ((List.range' y height).map fun yy =>
      ((List.range' x width).countP fun xx => p (yy * imageWidth + xx))).sum := by
  rw [pixelsIn, countP_flatMap]
  refine congrArg List.sum (map_congr_left fun yy _ => ?_)
  rw [comp_apply, countP_map]
  rfl

/-- A count over the tiles is a count over the image. -/
theorem sum_tiles {tile : Nat} (htile : 0 < tile) (width height : Nat) (p : Nat → Bool) :
    ((tileStarts tile height).map fun y => ((tileStarts tile width).map fun x =>
      (pixelsIn width x y (min tile (width - x)) (min tile (height - y))).countP p).sum).sum =
    (List.range (width * height)).countP p := by
  have hrow : ∀ yy, ((tileStarts tile width).map fun x =>
      (List.range' x (min tile (width - x))).countP fun xx => p (yy * width + xx)).sum =
      (List.range width).countP fun xx => p (yy * width + xx) := by
    intro yy
    rw [← flatMap_tileStarts htile width, countP_flatMap]
    rfl
  calc ((tileStarts tile height).map fun y => ((tileStarts tile width).map fun x =>
        (pixelsIn width x y (min tile (width - x)) (min tile (height - y))).countP p).sum).sum
    _ = ((tileStarts tile height).map fun y => ((List.range' y (min tile (height - y))).map
          fun yy => (List.range width).countP fun xx => p (yy * width + xx)).sum).sum := by
      refine congrArg List.sum (map_congr_left fun y _ => ?_)
      simp only [countP_pixelsIn]
      rw [sum_map_comm]
      exact congrArg List.sum (map_congr_left fun yy _ => hrow yy)
    _ = ((List.range height).map fun yy =>
          (List.range width).countP fun xx => p (yy * width + xx)).sum := by
      rw [← flatMap_tileStarts htile height, map_flatMap, sum_flatMap]
    _ = (List.range (width * height)).countP p := by
      rw [← flatMap_rows, countP_flatMap]
      refine congrArg List.sum (map_congr_left fun yy _ => ?_)
      rw [comp_apply, countP_map]
      rfl

/-- A tile with no change is left out, and counts for nothing. -/
theorem sum_tileAt (tile threshold y : Nat) (starts : List Nat) :
    ((starts.filterMap (tileAt before after tile threshold y)).map DiffRegion.changedPixels).sum =
      (starts.map fun x => (pixelsIn before.width x y (min tile (before.width - x))
        (min tile (before.height - y))).countP (isChanged before after threshold)).sum := by
  induction starts with
  | nil => rfl
  | cons x starts ih =>
    rw [filterMap_cons, map_cons, sum_cons, ← ih, tileAt]
    by_cases hpos : 0 < (pixelsIn before.width x y (min tile (before.width - x))
        (min tile (before.height - y))).countP (isChanged before after threshold)
    · simp only [if_pos hpos]
      rfl
    · simp only [if_neg hpos]
      rw [Nat.eq_zero_of_not_pos hpos, Nat.zero_add]

theorem sum_tilesOf (tile threshold : Nat) :
    ((tilesOf before after tile threshold).map DiffRegion.changedPixels).sum =
      (List.range (before.width * before.height)).countP (isChanged before after threshold) := by
  rw [tilesOf, map_flatMap, sum_flatMap,
    ← sum_tiles (Nat.le_max_right tile 1 : 0 < max tile 1)]
  exact congrArg List.sum (map_congr_left fun y _ => sum_tileAt _ _ _ _ _ _)

theorem changed_foldl (threshold : Nat) (extent : ChangeExtent)
    (pixels : List Nat) :
    (pixels.foldl (fun extent pixel =>
      if isChanged before after threshold pixel then extent.note before.width pixel else extent)
      extent).changed =
      extent.changed + pixels.countP (isChanged before after threshold) := by
  induction pixels generalizing extent with
  | nil => rfl
  | cons pixel pixels ih =>
    rw [foldl_cons, ih, countP_cons]
    split_ifs
    · simp only [ChangeExtent.note]
      omega
    · omega

theorem changedPixels_diffOf (threshold : Nat) :
    (diffOf before after threshold).changedPixels =
      (List.range (before.width * before.height)).countP (isChanged before after threshold) := by
  have hcount := changed_foldl before after threshold ⟨0, u32Max, u32Max, 0, 0⟩
    (List.range (before.width * before.height))
  rw [Nat.zero_add] at hcount
  exact hcount

end

/-- A tile, its sides within the image. -/
structure IsTile (imageWidth imageHeight : Nat) (region : DiffRegion) : Prop where
  width : 0 < region.width
  height : 0 < region.height
  right : region.x + region.width ≤ imageWidth
  bottom : region.y + region.height ≤ imageHeight

variable {before after : RgbaImage}

theorem isTile_of_mem {tile threshold : Nat} {region : DiffRegion}
    (h : region ∈ tilesOf before after tile threshold) :
    IsTile before.width before.height region := by
  have htile : 0 < max tile 1 := Nat.le_max_right tile 1
  obtain ⟨y, hy, hregion⟩ := mem_flatMap.mp h
  obtain ⟨x, hx, hat⟩ := mem_filterMap.mp hregion
  have hxlt := lt_of_mem_tileStarts htile hx
  have hylt := lt_of_mem_tileStarts htile hy
  rw [tileAt] at hat
  simp only [Option.ite_none_right_eq_some, Option.some.injEq] at hat
  obtain ⟨-, rfl⟩ := hat
  constructor <;> simp only <;> omega

/-- **Every changed pixel is on a tile that is listed.** -/
theorem exists_tile {tile threshold x y : Nat} (hx : x < before.width) (hy : y < before.height)
    (hchanged : isChanged before after threshold (y * before.width + x) = true) :
    ∃ region ∈ tilesOf before after tile threshold, region.x ≤ x ∧ x < region.x + region.width ∧
      region.y ≤ y ∧ y < region.y + region.height := by
  have htile : 0 < max tile 1 := Nat.le_max_right tile 1
  obtain ⟨left, hleft, hleftx, hxright⟩ := exists_tileStart htile hx
  obtain ⟨top, htop, htopy, hybottom⟩ := exists_tileStart htile hy
  have hpos : 0 < (pixelsIn before.width left top (min (max tile 1) (before.width - left))
      (min (max tile 1) (before.height - top))).countP (isChanged before after threshold) := by
    apply countP_pos_iff.mpr
    refine ⟨_, mem_flatMap.mpr ⟨y, mem_range'_1.mpr ⟨htopy, hybottom⟩, ?_⟩, hchanged⟩
    exact mem_map.mpr ⟨x, mem_range'_1.mpr ⟨hleftx, hxright⟩, rfl⟩
  have hat : tileAt before after (max tile 1) threshold top left = some ⟨left, top,
      min (max tile 1) (before.width - left), min (max tile 1) (before.height - top), _⟩ :=
    if_pos hpos
  exact ⟨_, mem_flatMap.mpr ⟨top, htop, mem_filterMap.mpr ⟨left, hleft, hat⟩⟩,
    hleftx, hxright, htopy, hybottom⟩

/-! ## Regions -/

/-- A region that is not empty and ends where a `u32` can say. -/
structure DiffRegion.Sized (region : DiffRegion) : Prop where
  width : 0 < region.width
  height : 0 < region.height
  right : region.x + region.width ≤ u32Max
  bottom : region.y + region.height ≤ u32Max

theorem DiffRegion.Sized.ends {region : DiffRegion} (h : region.Sized) :
    addU32 region.x region.width = region.x + region.width ∧
      addU32 region.y region.height = region.y + region.height :=
  ⟨Nat.min_eq_left h.right, Nat.min_eq_left h.bottom⟩

/-- The one lies inside the other. -/
structure DiffRegion.Within (inner outer : DiffRegion) : Prop where
  left : outer.x ≤ inner.x
  right : inner.x + inner.width ≤ outer.x + outer.width
  top : outer.y ≤ inner.y
  bottom : inner.y + inner.height ≤ outer.y + outer.height

/-- Two regions have more than a corner in common. -/
theorem regionsOverlapOrEdgeTouch_iff {a b : DiffRegion} (ha : a.Sized) (hb : b.Sized) :
    regionsOverlapOrEdgeTouch a b = true ↔
      (a.x ≤ b.x + b.width ∧ b.x ≤ a.x + a.width ∧
        a.y ≤ b.y + b.height ∧ b.y ≤ a.y + a.height) ∧
      (a.x < b.x + b.width ∧ b.x < a.x + a.width ∨
        a.y < b.y + b.height ∧ b.y < a.y + a.height) := by
  simp only [regionsOverlapOrEdgeTouch, ha.ends, hb.ends, Bool.or_eq_true, Bool.and_eq_true,
    decide_eq_true_eq]
  obtain ⟨hwidth, hheight, -, -⟩ := ha
  obtain ⟨hwidth', hheight', -, -⟩ := hb
  omega

/-- The sides of two regions merged. -/
theorem mergeRegions_sides {a b : DiffRegion} (ha : a.Sized) (hb : b.Sized) :
    (mergeRegions a b).x = min a.x b.x ∧ (mergeRegions a b).y = min a.y b.y ∧
      (mergeRegions a b).x + (mergeRegions a b).width = max (a.x + a.width) (b.x + b.width) ∧
      (mergeRegions a b).y + (mergeRegions a b).height =
        max (a.y + a.height) (b.y + b.height) := by
  rw [mergeRegions, ha.ends.1, ha.ends.2, hb.ends.1, hb.ends.2]
  obtain ⟨hwidth, hheight, -, -⟩ := ha
  obtain ⟨hwidth', hheight', -, -⟩ := hb
  refine ⟨rfl, rfl, ?_, ?_⟩ <;> simp only <;> omega

theorem mergeLaws : MergingWorklist.Laws regionsOverlapOrEdgeTouch mergeRegions
    DiffRegion.Sized DiffRegion.Within where
  refl _ := ⟨Nat.le_refl _, Nat.le_refl _, Nat.le_refl _, Nat.le_refl _⟩
  trans h h' := ⟨h'.left.trans h.left, h.right.trans h'.right, h'.top.trans h.top,
    h.bottom.trans h'.bottom⟩
  merge_good ha hb := by
    obtain ⟨hx, hy, hright, hbottom⟩ := mergeRegions_sides ha hb
    obtain ⟨hwidth, hheight, haright, habottom⟩ := ha
    obtain ⟨hwidth', hheight', hbright, hbbottom⟩ := hb
    constructor <;> omega
  left ha hb := by
    obtain ⟨hx, hy, hright, hbottom⟩ := mergeRegions_sides ha hb
    constructor <;> omega
  right ha hb := by
    obtain ⟨hx, hy, hright, hbottom⟩ := mergeRegions_sides ha hb
    constructor <;> omega
  least ha hb hac hbc := by
    obtain ⟨hx, hy, hright, hbottom⟩ := mergeRegions_sides ha hb
    obtain ⟨hleft, haright, htop, habottom⟩ := hac
    obtain ⟨hleft', hbright, htop', hbbottom⟩ := hbc
    constructor <;> omega
  symm h := by
    simp only [regionsOverlapOrEdgeTouch, Bool.or_eq_true, Bool.and_eq_true,
      decide_eq_true_eq] at *
    omega
  widen ha ha' hb hin htouches := by
    rw [regionsOverlapOrEdgeTouch_iff ha hb] at htouches
    rw [regionsOverlapOrEdgeTouch_iff ha' hb]
    obtain ⟨hleft, hright, htop, hbottom⟩ := hin
    omega

theorem changedPixels_mergeRegions (a b : DiffRegion)
    (h : a.changedPixels + b.changedPixels ≤ u64Max) :
    (mergeRegions a b).changedPixels = a.changedPixels + b.changedPixels :=
  Nat.min_eq_left h

theorem perm_sortRegions (regions : List DiffRegion) : (sortRegions regions).Perm regions :=
  perm_insertionSort _ _

/-- Tiles of an image a `u32` can measure. -/
theorem sized_of_isTile {width height : Nat} {region : DiffRegion}
    (h : IsTile width height region) (hwidth : width ≤ u32Max) (hheight : height ≤ u32Max) :
    region.Sized :=
  ⟨h.width, h.height, h.right.trans hwidth, h.bottom.trans hheight⟩

/-- The scale of one CSS side takes order to order. -/
theorem scaled_le_iff {scale : ℚ} (hscale : 0 < scale) (a b c : Nat) :
    (a : ℚ) * scale ≤ b * scale + c * scale ↔ a ≤ b + c := by
  rw [← add_mul, mul_le_mul_iff_left₀ hscale]
  exact_mod_cast Iff.rfl

theorem scaled_lt_iff {scale : ℚ} (hscale : 0 < scale) (a b c : Nat) :
    (a : ℚ) * scale < b * scale + c * scale ↔ a < b + c := by
  rw [← add_mul, mul_lt_mul_iff_left₀ hscale]
  exact_mod_cast Iff.rfl

/-- A place along a side lies in a stretch of it, in CSS pixels as well. -/
theorem scaled_cell {scale : ℚ} (hscale : 0 < scale) {start length x : Nat} (hstart : start ≤ x)
    (hend : x + 1 ≤ start + length) :
    (start : ℚ) * scale ≤ x * scale ∧
      (x : ℚ) * scale + scale ≤ start * scale + length * scale := by
  have hstart' : (start : ℚ) ≤ x := by exact_mod_cast hstart
  have hend' : (x : ℚ) + 1 ≤ start + length := by exact_mod_cast hend
  refine ⟨mul_le_mul_of_nonneg_right hstart' hscale.le, ?_⟩
  calc (x : ℚ) * scale + scale = (x + 1) * scale := by rw [add_mul, one_mul]
    _ ≤ (start + length) * scale := mul_le_mul_of_nonneg_right hend' hscale.le
    _ = start * scale + length * scale := add_mul _ _ _

/-- Regions meet in CSS pixels where they touch. -/
theorem meets_cssRegion_iff {scaleX scaleY : ℚ} (hx : 0 < scaleX) (hy : 0 < scaleY)
    {a b : DiffRegion} (ha : a.Sized) (hb : b.Sized) :
    (cssRegion scaleX scaleY a).Meets (cssRegion scaleX scaleY b) ↔
      regionsOverlapOrEdgeTouch a b = true := by
  have hsides : ∀ region : DiffRegion, region.Sized →
      0 < (cssRegion scaleX scaleY region).width ∧ 0 < (cssRegion scaleX scaleY region).height :=
    fun region hregion => ⟨mul_pos (Nat.cast_pos.mpr hregion.width) hx,
      mul_pos (Nat.cast_pos.mpr hregion.height) hy⟩
  rw [Rect.meets_iff (hsides a ha).1 (hsides a ha).2 (hsides b hb).1 (hsides b hb).2,
    regionsOverlapOrEdgeTouch_iff ha hb]
  simp only [cssRegion, scaled_le_iff hx, scaled_le_iff hy, scaled_lt_iff hx, scaled_lt_iff hy]

/-! ## The plan -/

theorem checkFrames_eq_ok (h : checkFrames before after = .ok ()) :
    before.Valid ∧ after.Valid ∧ before.width = after.width ∧ before.height = after.height := by
  simp only [checkFrames, bind_eq_ok, rejectIf_eq_ok] at h
  obtain ⟨_, hbefore, _, hafter, hsame⟩ := h
  push Not at hsame
  exact ⟨RgbaImage.validate_eq_ok.mp hbefore, RgbaImage.validate_eq_ok.mp hafter, hsame⟩

/-- A plan of regions: the frames and the viewport passed, and the regions are the tiles
merged. -/
theorem regions_of_plan {cssViewport : ℚ × ℚ}
    {policy : ChangedRegionPolicy} {regions : List Rect} {changedRatio : ℚ}
    (h : planChangedCssRegions before after cssViewport policy =
      .ok (.regions regions changedRatio)) :
    checkFrames before after = .ok () ∧ 0 < cssViewport.1 ∧ 0 < cssViewport.2 ∧
      regions = (coalesceRegions (tilesOf before after policy.tilePx policy.threshold)).map
        (cssRegion (cssViewport.1 / before.width) (cssViewport.2 / before.height)) := by
  simp only [planChangedCssRegions, bind_eq_ok, rejectIf_eq_ok, not_or, not_le] at h
  obtain ⟨_, hframes, _, ⟨hwidth, hheight⟩, _, -, diff, -, hplan⟩ := h
  split_ifs at hplan with hnone hbroad
  · cases hplan
  · cases hplan
  · simp only [bind_eq_ok, changedTiles] at hplan
    obtain ⟨tiles, ⟨_, -, htiles⟩, hplan⟩ := hplan
    cases htiles
    split_ifs at hplan
    · cases hplan
    · cases hplan
      exact ⟨hframes, hwidth, hheight, rfl⟩

/-- The regions cover what changed, count it once, and stay apart. -/
structure CoversApart (before after : RgbaImage) (cssViewport : ℚ × ℚ)
    (policy : ChangedRegionPolicy) (regions : List Rect) : Prop where
  covers : ∀ x y, x < before.width → y < before.height →
    policy.threshold < channelDelta before after (y * before.width + x) →
    ∃ region ∈ regions, (before.cssCell cssViewport x y).Within region
  counted : ∀ tiles diff,
    changedTiles before after policy.tilePx policy.threshold = .ok tiles →
    pixelDiff before after policy.threshold = .ok diff →
    ((coalesceRegions tiles).map DiffRegion.changedPixels).sum = diff.changedPixels
  apart : regions.Pairwise fun a b => ¬ a.Meets b

section
variable {before after : RgbaImage} {tile threshold : Nat}

theorem sized_tiles (h : checkFrames before after = .ok ()) :
    ∀ region ∈ sortRegions (tilesOf before after tile threshold), region.Sized := by
  obtain ⟨hvalid, -⟩ := checkFrames_eq_ok h
  have hwidth := hvalid.width_le
  intro region hregion
  rw [(perm_sortRegions _).mem_iff] at hregion
  exact sized_of_isTile (isTile_of_mem hregion) (by omega) hvalid.height_le

theorem mem_coalesceRegions {pending : List DiffRegion} {region : DiffRegion} :
    region ∈ coalesceRegions pending ↔
      region ∈ mergeAll regionsOverlapOrEdgeTouch mergeRegions
        (sortRegions pending).length (sortRegions pending) :=
  (perm_sortRegions _).mem_iff

variable (tile) in
/-- A changed pixel lies in a region. -/
theorem exists_region (h : checkFrames before after = .ok ()) {x y : Nat}
    (hx : x < before.width) (hy : y < before.height)
    (hchanged : isChanged before after threshold (y * before.width + x) = true) :
    ∃ region ∈ coalesceRegions (tilesOf before after tile threshold),
      (region.x ≤ x ∧ x + 1 ≤ region.x + region.width) ∧
      region.y ≤ y ∧ y + 1 ≤ region.y + region.height := by
  obtain ⟨found, hfound, hleft, hright, htop, hbottom⟩ := exists_tile hx hy hchanged
  obtain ⟨region, hregion, hin⟩ := (mergeAll_spec mergeLaws (sized_tiles h)
    (Nat.le_refl _)).1 found ((perm_sortRegions _).mem_iff.mpr hfound)
  obtain ⟨hin1, hin2, hin3, hin4⟩ := hin
  refine ⟨region, mem_coalesceRegions.mpr hregion, ?_⟩
  omega

theorem sum_coalesceRegions (h : checkFrames before after = .ok ()) :
    ((coalesceRegions (tilesOf before after tile threshold)).map DiffRegion.changedPixels).sum =
      (diffOf before after threshold).changedPixels := by
  obtain ⟨hvalid, -⟩ := checkFrames_eq_ok h
  have hsum : ((sortRegions (tilesOf before after tile threshold)).map
      DiffRegion.changedPixels).sum = (diffOf before after threshold).changedPixels := by
    rw [((perm_sortRegions _).map DiffRegion.changedPixels).sum_nat, sum_tilesOf,
      changedPixels_diffOf]
  have hmost : (diffOf before after threshold).changedPixels ≤ u64Max := by
    have hcount := countP_le_length (p := isChanged before after threshold)
      (l := List.range (before.width * before.height))
    rw [length_range] at hcount
    have hlength := hvalid.length
    have hbound := hvalid.bound
    rw [changedPixels_diffOf]
    have hu32 : u32Max ≤ u64Max := by decide
    omega
  rw [coalesceRegions, ((perm_sortRegions _).map DiffRegion.changedPixels).sum_nat,
    sum_mergeAll changedPixels_mergeRegions (Nat.le_refl _)
      (by rw [hsum]; exact hmost), hsum]

end

/-- **The regions cover the change apart from one another** exactly where no tile is passed:
whenever the worklist takes up a tile, no pending tile that it never touches, however it grows,
grows itself to touch what it grows to. -/
theorem planChangedCssRegions_coversApart {before after : RgbaImage} {cssViewport : ℚ × ℚ}
    {policy : ChangedRegionPolicy} {regions : List Rect} {changedRatio : ℚ}
    (h : planChangedCssRegions before after cssViewport policy =
      .ok (.regions regions changedRatio)) :
    CoversApart before after cssViewport policy regions ↔
      MergingWorklist.NeverPassed regionsOverlapOrEdgeTouch mergeRegions
        (sortRegions (tilesOf before after policy.tilePx policy.threshold)) := by
  obtain ⟨hframes, hcssWidth, hcssHeight, rfl⟩ := regions_of_plan h
  obtain ⟨hvalid, -⟩ := checkFrames_eq_ok hframes
  have hscaleX : 0 < cssViewport.1 / before.width :=
    div_pos hcssWidth (Nat.cast_pos.mpr hvalid.width)
  have hscaleY : 0 < cssViewport.2 / before.height :=
    div_pos hcssHeight (Nat.cast_pos.mpr hvalid.height)
  have hsized : ∀ region ∈ sortRegions (tilesOf before after policy.tilePx policy.threshold),
      region.Sized := sized_tiles hframes
  rw [← apart_iff mergeLaws hsized (Nat.le_refl _)]
  have hapart : ((coalesceRegions (tilesOf before after policy.tilePx policy.threshold)).map
        (cssRegion (cssViewport.1 / before.width) (cssViewport.2 / before.height))).Pairwise
        (fun a b => ¬ a.Meets b) ↔
      (mergeAll regionsOverlapOrEdgeTouch mergeRegions
        (sortRegions (tilesOf before after policy.tilePx policy.threshold)).length
        (sortRegions (tilesOf before after policy.tilePx policy.threshold))).Pairwise
        (fun a b => regionsOverlapOrEdgeTouch a b = false) := by
    rw [pairwise_map, coalesceRegions,
      (perm_sortRegions _).pairwise_iff fun hab hba => hab hba.symm]
    refine List.Pairwise.iff_of_mem fun ha hb => ?_
    have hgood := mergeAll_good mergeLaws hsized (Nat.le_refl _)
    rw [meets_cssRegion_iff hscaleX hscaleY (hgood _ ha) (hgood _ hb), Bool.not_eq_true]
  rw [← hapart]
  refine ⟨CoversApart.apart, fun h => ⟨fun x y hx hy hchanged => ?_, ?_, h⟩⟩
  · obtain ⟨region, hregion, ⟨hleft, hright⟩, htop, hbottom⟩ :=
      exists_region policy.tilePx hframes hx hy (decide_eq_true hchanged)
    obtain ⟨hx, hx'⟩ := scaled_cell hscaleX hleft hright
    obtain ⟨hy, hy'⟩ := scaled_cell hscaleY htop hbottom
    exact ⟨_, mem_map_of_mem hregion, hx, hx', hy, hy'⟩
  · intro tiles diff htiles hdiff
    simp only [changedTiles, pixelDiff, hframes] at htiles hdiff
    cases htiles
    cases hdiff
    exact sum_coalesceRegions hframes

/-- A frame of one colour but for some pixels. -/
def marked (size : Nat) (pixels : List (Nat × Nat)) : RgbaImage where
  width := size
  height := size
  data := (List.range size).flatMap fun y => (List.range size).flatMap fun x =>
    if (x, y) ∈ pixels then [255, 255, 255, 255] else [0, 0, 0, 255]

def everyPixel : ChangedRegionPolicy := ⟨1, 1, 8, 9 / 10⟩

/-- Two pixels side by side and one in the corner are two regions. -/
def pairAndCorner : RgbaImage := marked 4 [(0, 0), (1, 0), (3, 3)]

theorem plan_pairAndCorner :
    planChangedCssRegions (marked 4 []) pairAndCorner (400, 200) everyPixel =
      .ok (.regions [⟨0, 0, 200, 50⟩, ⟨300, 150, 100, 50⟩] (3 / 16)) := by decide +kernel

theorem coversApart_pairAndCorner : CoversApart (marked 4 []) pairAndCorner (400, 200) everyPixel
    [⟨0, 0, 200, 50⟩, ⟨300, 150, 100, 50⟩] := by
  obtain ⟨hframes, -⟩ := regions_of_plan plan_pairAndCorner
  refine (planChangedCssRegions_coversApart plan_pairAndCorner).mpr ?_
  exact (apart_iff mergeLaws (sized_tiles hframes) (Nat.le_refl _)).mp
    (by decide +kernel)

/-- The left and upper border changed, and the pixel in the corner across. -/
def cornerAcross : RgbaImage := marked 3 [(0, 0), (1, 0), (2, 0), (0, 1), (0, 2), (2, 2)]

theorem plan_cornerAcross : planChangedCssRegions (marked 3 []) cornerAcross (3, 3) everyPixel =
      .ok (.regions [⟨0, 0, 3, 3⟩, ⟨2, 2, 1, 1⟩] (2 / 3)) := by decide +kernel

/-- The corner is set aside first, and the border grows over it. -/
theorem cornerAcross_overlapped : ¬ ∀ before after cssViewport policy regions changedRatio,
      planChangedCssRegions before after cssViewport policy =
        .ok (.regions regions changedRatio) →
      CoversApart before after cssViewport policy regions := by
  intro h
  have hapart := (h _ _ _ _ _ _ plan_cornerAcross).apart
  rw [pairwise_pair] at hapart
  refine hapart ⟨(2, 2), (3, 3), ?_, ⟨?_, ?_⟩, ?_, ?_⟩
  · decide
  all_goals constructor <;> norm_num

end Localview
